import SerialIp.Utilities

/-! The BUFFER of buffer_handle.c: its record, its operations and the answers
of read() and write() that drive them. Pointers are offsets from `buffp`, so
`buffp` itself is 0; the label, which only log texts use, is left out. -/
namespace SerialIp
open Library

def BUFSIZ : Int := 8192
def SIZE_BUFFER : Int := 4096

structure Buffer where
  size : Int
  nbuffered : Int
  eof : Bool
  tailp : Int
  readp : Int
  writep : Int
  mem : Block UInt8

/-- An answer of read(): some bytes (none of them is end of file), EINTR or
EAGAIN, or another error. At most the amount asked for is taken. -/
inductive ReadReply
  | bytes (data : List UInt8)
  | interrupted
  | failed

/-- An answer of write(): everything offered, at most `limit` bytes of it, EINTR
or EAGAIN, or another error. -/
inductive WriteReply
  | all
  | upTo (limit : Nat)
  | interrupted
  | failed

def WriteReply.taken (bytes : Int) : WriteReply → Int
  | .all => bytes
  | .upTo limit => min limit bytes
  | .interrupted => 0
  | .failed => -1

/-- The result of one buffer transfer: the C return value, the buffer after it
and the bytes that went through the system call. -/
structure Transfer where
  ret : Int
  buff : Buffer
  moved : List UInt8

namespace Buffer

def bfinit (b : Buffer) : Buffer :=
  {b with readp := 0, writep := 0, tailp := b.size, nbuffered := 0,
          mem := b.mem.copy 0 (List.replicate b.size.toNat 0)}

/-- The buffer of a bfmalloc whose allocations succeed. -/
def bfmalloc (size : Int) : Buffer :=
  bfinit {size := if size > 0 then size else BUFSIZ, nbuffered := 0, eof := false,
          tailp := 0, readp := 0, writep := 0, mem := ⟨fun _ => 0,[]⟩}

def bufferReadpointerPosition (b : Buffer) (nbytes : Int) : Buffer :=
  {b with nbuffered := b.nbuffered+nbytes, readp := b.readp+nbytes}

def bufferWritepointerPosition (b : Buffer) (nbytes : Int) : Buffer :=
  let left := b.nbuffered-nbytes
  if left > 0 then {b with nbuffered := left, writep := b.writep+nbytes}
  else bfinit {b with nbuffered := left}

def bfinsch (b : Buffer) (ptr : Int) (ch : UInt8) : Int × Buffer :=
  if b.writep ≤ ptr ∧ ptr ≤ b.readp then
    let mem := (b.mem.shiftRight ptr (b.readp-ptr).toNat).store ptr ch
    (1,bufferReadpointerPosition {b with mem := mem} 1)
  else (0,b)

def bfstrchrLoop (m : Block UInt8) (ch : UInt8) : Int → Nat → Int
  | s,0 => s
  | s,n+1 => if m.cell s ≠ ch then bfstrchrLoop m ch (s+1) n else s

/-- The byte where the loop stopped is tested again, also when the loop ran out. -/
def bfstrchr (b : Buffer) (ch : UInt8) : Option Int :=
  let s := bfstrchrLoop b.mem ch b.writep b.nbuffered.toNat
  if b.mem.cell s = ch then some s else none

def bfrmstr (b : Buffer) (ptr nbytes : Int) : Int × Buffer :=
  if b.writep ≤ ptr ∧ ptr ≤ b.readp then
    if nbytes ≥ b.nbuffered then (nbytes,bfinit b)
    else
      let nbytes := if nbytes > b.readp-ptr then b.readp-ptr else nbytes
      let mem := b.mem.shiftLeft ptr (ptr+nbytes) (b.readp-(ptr+nbytes)).toNat
      (nbytes,bufferReadpointerPosition {b with mem := mem} (nbytes*(-1)))
  else (0,b)

def bfPointToActivePortion (b : Buffer) : Int × Int := (b.writep,b.nbuffered)

def bfeof (b : Buffer) : Bool := b.eof

def calNumbytesToRead (b : Buffer) : Int :=
  if b.readp > b.writep then b.tailp-b.readp
  else if b.readp < b.writep then b.writep-b.readp
  else if b.nbuffered = 0 then b.size
  else 0

def readFromFdToBuffer (reply : ReadReply) (b : Buffer) : Transfer :=
  let bytes := calNumbytesToRead b
  if bytes ≤ 0 then ⟨bytes,b,[]⟩
  else match reply with
    | .failed => ⟨-1,b,[]⟩
    | .interrupted => ⟨0,b,[]⟩
    | .bytes data =>
      let data := data.take bytes.toNat
      if data = [] then ⟨0,{b with eof := true},[]⟩
      else ⟨data.length,
        bufferReadpointerPosition {b with mem := b.mem.copy b.readp data} data.length,data⟩

def calNumbytesToWrite (b : Buffer) : Int :=
  if b.readp > b.writep then b.readp-b.writep
  else if b.readp < b.writep then b.tailp-b.writep
  else if b.nbuffered = 0 then 0
  else b.tailp-b.writep

def writeFromBufferToFd (reply : WriteReply) (b : Buffer) : Transfer :=
  let bytes := calNumbytesToWrite b
  if bytes ≤ 0 then ⟨bytes,b,[]⟩
  else
    let n := reply.taken bytes
    if n ≤ 0 then ⟨n,b,[]⟩
    else ⟨n,bufferWritepointerPosition b n,b.mem.read b.writep n.toNat⟩

def bfstrncat (b : Buffer) (command : List UInt8) (nbytes : Int) : Int × Buffer :=
  let len := if nbytes > b.size-b.nbuffered then b.size-b.nbuffered else nbytes
  let mem := b.mem.copy b.readp (command.take len.toNat)
  (len,bufferReadpointerPosition {b with mem := mem} len)

def bfstrcat (b : Buffer) (command : List UInt8) : Int × Buffer :=
  bfstrncat b command command.length

end Buffer
end SerialIp

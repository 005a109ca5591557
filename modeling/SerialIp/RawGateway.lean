import SerialIp.Buffer

/-! The raw TCP gateway (raw.c): one call carries what a single recv() delivers to
the serial port, another what a single read() delivers to the client. Their arrays are
local and start with whatever the stack holds. -/
namespace SerialIp
open Library

abbrev MAX_LEN_MESSAGE : Nat := 100
abbrev MAX_MESSAGE_LENGTH : Nat := 30
abbrev MAX_BUFFER_LENGTH : Nat := 200

/-- What recv() or read() returns when it is asked for `bufflen` bytes; any error is -1. -/
def ReadReply.count (bufflen : Nat) : ReadReply → Int
  | .bytes data => (data.take bufflen).length
  | .interrupted => -1
  | .failed => -1

def ReadReply.data (bufflen : Nat) : ReadReply → List UInt8
  | .bytes data => data.take bufflen
  | .interrupted => []
  | .failed => []

/-- What write() or send() returns when it is offered `bytes` bytes; any error is -1. -/
def WriteReply.count (bytes : Int) : WriteReply → Int
  | .interrupted => -1
  | reply => reply.taken bytes

/-- The receiving half of serialip_xmit; whatever recv() says ends its loop at once. -/
def readFromRawTcpBuffer (reply : ReadReply) (buff : Block UInt8) (bufflen : Nat) :
    Int × Block UInt8 :=
  if bufflen = 0 then (0,buff) else (reply.count bufflen,buff.copy 0 (reply.data bufflen))

/-- The sending half. -/
def serialipSend (reply : WriteReply) (bufflen : Int) : Int :=
  if bufflen = 0 then 0 else reply.count bufflen

/-- `raw_buffer` and `command`. -/
structure RawFrame where
  rawBuffer : Block UInt8
  command : Block UInt8

/-- `struct op_pdu`. -/
structure OpPdu where
  message : Block UInt8
  data : Block UInt8
  version : UInt16

def OpPdu.bzero (pdu : OpPdu) : OpPdu where
  message := pdu.message.copy 0 (List.replicate MAX_MESSAGE_LENGTH 0)
  data := pdu.data.copy 0 (List.replicate MAX_BUFFER_LENGTH 0)
  version := 0

/-- The error returned, the arrays as they are left, and the bytes handed to write(). -/
structure RawToSerial where
  error : Int
  frame : RawFrame
  written : List UInt8

def rawTcpSocketToSerial (recv : ReadReply) (answer : WriteReply) (frame : RawFrame) :
    RawToSerial :=
  let (n,rawBuffer) := readFromRawTcpBuffer recv frame.rawBuffer 256
  let command := frame.command.copy 0 (rawBuffer.read 0 n.toNat)
  let size : Int := n.toNat
  let (command,rawBuffer,error) :=
    if size > 0 then (command.store size 0,rawBuffer.store n 0,0) else (command,rawBuffer,1)
  let numbytes := answer.count (n+1)
  ⟨if numbytes < 0 then 1 else error,⟨rawBuffer,command⟩,rawBuffer.read 0 (n+1).toNat⟩

structure RawToSocket where
  error : Int
  pdu : OpPdu
  sent : List UInt8

def rawDataToTcpSocket (reply : ReadReply) (answer : WriteReply) (pdu : OpPdu) : RawToSocket :=
  let pdu := pdu.bzero
  let numbytes := reply.count MAX_BUFFER_LENGTH
  let data := pdu.data.copy 0 (reply.data MAX_BUFFER_LENGTH)
  let (data,error) := if numbytes < 0 then (data,1) else (data.store numbytes 10,0)
  ⟨if serialipSend answer (numbytes+1) < 0 then 1 else error,{pdu with data := data},
    data.read 0 (numbytes+1).toNat⟩

theorem ReadReply.count_eq (bufflen : Nat) (reply : ReadReply) :
    reply.count bufflen = (reply.data bufflen).length ∨
      (reply.count bufflen = -1 ∧ reply.data bufflen = []) := by
  cases reply with
  | bytes data => exact Or.inl rfl
  | interrupted | failed => exact Or.inr ⟨rfl,rfl⟩

theorem ReadReply.count_bounds (bufflen : Nat) (reply : ReadReply) :
    -1 ≤ reply.count bufflen ∧ reply.count bufflen ≤ bufflen ∧
      (reply.data bufflen).length = (reply.count bufflen).toNat := by
  have fits : (reply.data bufflen).length ≤ bufflen := by
    cases reply with
    | bytes data => exact List.length_take_le _ _
    | interrupted | failed => exact Nat.zero_le _
  rcases reply.count_eq bufflen with given | ⟨error,none⟩
  · omega
  · rw [error,none]
    exact ⟨by decide,by omega,rfl⟩

def Inside (size : Nat) (i : Int) : Prop := 0 ≤ i ∧ i < size

theorem copy_inside {size : Nat} (m : Block UInt8) {values : List UInt8} (fits : values.length ≤ size) :
    Block.Writes (Inside size) m (m.copy 0 values) := by
  apply (Block.copy_writes m 0 values).mono
  intro i inside
  exact ⟨inside.1,by omega⟩

/-- A copy of `count` bytes and a store behind them stay inside an array exactly when
the array is longer than that. -/
theorem terminated_inside_iff {size : Nat} (m : Block UInt8) (values : List UInt8) (byte : UInt8) :
    Block.Writes (Inside size) m ((m.copy 0 values).store values.length byte) ↔
      values.length < size := by
  constructor
  · intro writes
    have last := (Block.copy_writes m 0 values).last writes
    exact Int.ofNat_lt.mp last.2
  · intro room
    apply (copy_inside m room.le).trans ((Block.store_writes _ _ _).mono _)
    intro i same
    exact ⟨by omega,by omega⟩

theorem readFromRawTcpBuffer_eq (recv : ReadReply) (buff : Block UInt8) :
    readFromRawTcpBuffer recv buff 256 = (recv.count 256,buff.copy 0 (recv.data 256)) :=
  if_neg (by decide)

/-- A call that receives something ends both arrays with a NUL and writes the bytes
together with it. -/
theorem rawTcpSocketToSerial_delivered {recv : ReadReply} (some : recv.data 256 ≠ [])
    (answer : WriteReply) (frame : RawFrame) :
    (rawTcpSocketToSerial recv answer frame).frame =
        ⟨(frame.rawBuffer.copy 0 (recv.data 256)).store (recv.data 256).length 0,
          (frame.command.copy 0 (recv.data 256)).store (recv.data 256).length 0⟩ ∧
      (rawTcpSocketToSerial recv answer frame).written = recv.data 256 ++ [0] := by
  have count := (recv.count_eq 256).resolve_right (fun error => some error.2)
  have positive := List.length_pos_iff.mpr some
  have copied := Block.read_copy frame.rawBuffer 0 (recv.data 256)
  have next : ((recv.data 256).length+1 : Int).toNat = (recv.data 256).length+1 := by omega
  have written : ((frame.rawBuffer.copy 0 (recv.data 256)).store (recv.data 256).length 0).read 0
      ((recv.data 256).length+1) = recv.data 256 ++ [0] := by
    rw [Block.read_append]
    congr 1
    · conv_rhs => rw [← copied]
      apply Block.read_eq
      intro k bound
      exact Block.store_other _ _ (by omega)
    · simp [Block.read]
  unfold rawTcpSocketToSerial
  rw [readFromRawTcpBuffer_eq]
  dsimp only
  rw [count,Int.toNat_natCast,copied,if_pos (by omega),next]
  exact ⟨rfl,written⟩

/-- A call that receives nothing stores nothing; at end of file it still hands the
first cell of its array to write(). -/
theorem rawTcpSocketToSerial_silent {recv : ReadReply} (none : recv.data 256 = [])
    (answer : WriteReply) (frame : RawFrame) :
    (rawTcpSocketToSerial recv answer frame).frame = frame ∧
      (rawTcpSocketToSerial recv answer frame).written =
        frame.rawBuffer.read 0 (recv.count 256+1).toNat := by
  have count : (recv.count 256).toNat = 0 := by
    have bounds := recv.count_bounds 256
    rw [none] at bounds
    exact bounds.2.2.symm
  unfold rawTcpSocketToSerial
  rw [readFromRawTcpBuffer_eq,none]
  dsimp only
  rw [count,if_neg (by decide)]
  exact ⟨rfl,rfl⟩

theorem rawTcpSocketToSerial_inside_iff (recv : ReadReply) (answer : WriteReply) (frame : RawFrame) :
    (Block.Writes (Inside MAX_LEN_MESSAGE) frame.command
        (rawTcpSocketToSerial recv answer frame).frame.command ∧
      Block.Writes (Inside 256) frame.rawBuffer
        (rawTcpSocketToSerial recv answer frame).frame.rawBuffer) ↔ recv.count 256 ≤ 99 := by
  have bounds := recv.count_bounds 256
  by_cases none : recv.data 256 = []
  · rw [(rawTcpSocketToSerial_silent none answer frame).1]
    rw [none,List.length_nil] at bounds
    exact iff_of_true ⟨Block.Writes.refl _ _,Block.Writes.refl _ _⟩ (by omega)
  · rw [(rawTcpSocketToSerial_delivered none answer frame).1]
    dsimp only
    rw [terminated_inside_iff,terminated_inside_iff]
    have positive := List.length_pos_iff.mpr none
    unfold MAX_LEN_MESSAGE
    omega

theorem rawDataToTcpSocket_inside_iff (reply : ReadReply) (answer : WriteReply) (pdu : OpPdu) :
    (Block.Writes (Inside MAX_MESSAGE_LENGTH) pdu.message
        (rawDataToTcpSocket reply answer pdu).pdu.message ∧
      Block.Writes (Inside MAX_BUFFER_LENGTH) pdu.data
        (rawDataToTcpSocket reply answer pdu).pdu.data) ↔ reply.count MAX_BUFFER_LENGTH ≤ 199 := by
  have message : Block.Writes (Inside MAX_MESSAGE_LENGTH) pdu.message pdu.bzero.message :=
    copy_inside _ (by simp)
  have zeroed : Block.Writes (Inside MAX_BUFFER_LENGTH) pdu.data pdu.bzero.data :=
    copy_inside _ (by simp)
  have bounds := reply.count_bounds MAX_BUFFER_LENGTH
  have copied : Block.Writes (Inside MAX_BUFFER_LENGTH) pdu.bzero.data
      (pdu.bzero.data.copy 0 (reply.data MAX_BUFFER_LENGTH)) := copy_inside _ (by omega)
  unfold rawDataToTcpSocket
  dsimp only
  by_cases error : reply.count MAX_BUFFER_LENGTH < 0
  · rw [if_pos error]
    exact iff_of_true ⟨message,zeroed.trans copied⟩ (by omega)
  · rw [if_neg error]
    refine ⟨?_,?_⟩
    · intro both
      have last := (zeroed.trans copied).last both.2
      exact Int.le_of_lt_add_one last.2
    · intro room
      have stored : Inside MAX_BUFFER_LENGTH (reply.count MAX_BUFFER_LENGTH) :=
        ⟨not_lt.mp error,Int.lt_add_one_of_le room⟩
      refine ⟨message,(zeroed.trans copied).trans ((Block.store_writes _ _ _).mono ?_)⟩
      intro i same
      exact same ▸ stored

/-- The arrays of both functions hold what is stored into them exactly when recv()
returns at most 99 and read() at most 199 bytes: each stores one byte behind them. -/
theorem raw_stores_inside_iff (recv read : ReadReply) (answer sent : WriteReply) (frame : RawFrame)
    (pdu : OpPdu) :
    ((Block.Writes (Inside MAX_LEN_MESSAGE) frame.command
          (rawTcpSocketToSerial recv answer frame).frame.command ∧
        Block.Writes (Inside 256) frame.rawBuffer
          (rawTcpSocketToSerial recv answer frame).frame.rawBuffer) ∧
      Block.Writes (Inside MAX_MESSAGE_LENGTH) pdu.message
          (rawDataToTcpSocket read sent pdu).pdu.message ∧
        Block.Writes (Inside MAX_BUFFER_LENGTH) pdu.data
          (rawDataToTcpSocket read sent pdu).pdu.data) ↔
      recv.count 256 ≤ 99 ∧ read.count MAX_BUFFER_LENGTH ≤ 199 := by
  rw [rawTcpSocketToSerial_inside_iff,rawDataToTcpSocket_inside_iff]

/-- A hundred bytes from the client overrun `command`. -/
theorem raw_stores_outside : ¬∀ (recv read : ReadReply) (answer sent : WriteReply)
    (frame : RawFrame) (pdu : OpPdu),
    (Block.Writes (Inside MAX_LEN_MESSAGE) frame.command
          (rawTcpSocketToSerial recv answer frame).frame.command ∧
        Block.Writes (Inside 256) frame.rawBuffer
          (rawTcpSocketToSerial recv answer frame).frame.rawBuffer) ∧
      Block.Writes (Inside MAX_MESSAGE_LENGTH) pdu.message
          (rawDataToTcpSocket read sent pdu).pdu.message ∧
        Block.Writes (Inside MAX_BUFFER_LENGTH) pdu.data
          (rawDataToTcpSocket read sent pdu).pdu.data := by
  intro always
  let empty : Block UInt8 := ⟨fun _ => 0,[]⟩
  have inside := always (.bytes (List.replicate 100 65)) .failed .all .all ⟨empty,empty⟩
    ⟨empty,empty,0⟩
  have count := (rawTcpSocketToSerial_inside_iff _ _ _).mp inside.1
  exact absurd count (by decide)

/-- What one recv() can deliver without an overrun. -/
structure Piece where
  bytes : List UInt8
  some : bytes ≠ []
  fits : bytes.length ≤ 99

theorem Piece.written (piece : Piece) (answer : WriteReply) (frame : RawFrame) :
    (rawTcpSocketToSerial (.bytes piece.bytes) answer frame).written = piece.bytes ++ [0] := by
  have whole : ReadReply.data 256 (.bytes piece.bytes) = piece.bytes :=
    List.take_of_length_le (by have fits := piece.fits; omega)
  have delivered := (rawTcpSocketToSerial_delivered (whole.trans_ne piece.some) answer frame).2
  rw [whole] at delivered
  exact delivered

/-- Every piece reaches the serial port with a NUL behind it, so the bytes there show
how the stream was cut; the call that meets an error writes nothing. -/
theorem pieces_terminated (calls : List (Piece × WriteReply × RawFrame)) (last : ReadReply)
    (error : last = .failed ∨ last = .interrupted) (answer : WriteReply) (frame : RawFrame) :
    calls.flatMap (fun call =>
        (rawTcpSocketToSerial (.bytes call.1.bytes) call.2.1 call.2.2).written) =
      calls.flatMap (fun call => call.1.bytes ++ [0]) ∧
      (rawTcpSocketToSerial last answer frame).written = [] := by
  refine ⟨?_,?_⟩
  · apply List.flatMap_congr
    intro call _
    exact call.1.written call.2.1 call.2.2
  · rcases error with rfl | rfl
    · exact (rawTcpSocketToSerial_silent rfl answer frame).2
    · exact (rawTcpSocketToSerial_silent rfl answer frame).2

theorem pieces_terminated_two : let stack : Block UInt8 := ⟨fun _ => 7,[]⟩
    [(Piece.mk [65] (by decide) (by decide),WriteReply.all,RawFrame.mk stack stack),
        (Piece.mk [66,13] (by decide) (by decide),.all,⟨stack,stack⟩)].flatMap (fun call =>
      (rawTcpSocketToSerial (.bytes call.1.bytes) call.2.1 call.2.2).written) = [65,0,66,13,0] ∧
    (rawTcpSocketToSerial .failed .all ⟨stack,stack⟩).written = [] :=
  pieces_terminated _ .failed (Or.inl rfl) .all _

theorem pieces_not_transparent : ¬∀ calls : List (Piece × WriteReply × RawFrame),
    calls.flatMap (fun call =>
        (rawTcpSocketToSerial (.bytes call.1.bytes) call.2.1 call.2.2).written) =
      calls.flatMap (fun call => call.1.bytes) := by
  intro always
  have same := always [(⟨[65],by decide,by decide⟩,.all,⟨⟨fun _ => 0,[]⟩,⟨fun _ => 0,[]⟩⟩)]
  exact absurd same (by decide)

end SerialIp

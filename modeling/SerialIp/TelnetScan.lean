import SerialIp.ComPort

/-! The socket-to-serial path in telnet mode: the scan for telnet commands in
what the client sent (telnet.c), and read_socket and write_serial around it
(network_controller.c). -/
namespace SerialIp
open Library Buffer

structure Gateway where
  buff : Buffer
  session : Session

/-- The local state of the loop of process_telnet_options, and what it works on. -/
structure Scan extends Gateway where
  iac : Int
  size : Int

def Scan.drop (st : Scan) (nbytes : Int) : Scan :=
  {st with buff := (bfrmstr st.buff st.iac nbytes).2, size := st.size-nbytes}

def answerSuboption (st : Scan) (option : UInt8) : Session :=
  if option = TELOPT_COM_PORT_OPTION ∧ telnetClientOptionIsEnabled option st.session then
    (processTelnetCpcSuboption st.buff.mem (st.iac+3) (st.size-3) st.session).2
  else st.session

/-- The switch of the loop, with `iac` on an IAC. The bytes behind it are read
wherever they lie, also beyond the content. -/
def scanCommand (st : Scan) : Scan :=
  let optcode := st.buff.mem.cell (st.iac+1)
  if optcode = IAC then
    {st with buff := (bfrmstr st.buff st.iac 1).2, iac := st.iac+1, size := st.size-2}
  else match OptCode.ofByte? optcode with
  | some optcode =>
    let option := st.buff.mem.cell (st.iac+2)
    {st with session := (respondTelnetOption optcode option st.session).2}.drop 3
  | none =>
    if optcode = SB then
      let option := st.buff.mem.cell (st.iac+2)
      let answered := {st with session := answerSuboption st option}
      match mystrchr st.buff.mem (st.iac+3) SE (st.size-3) with
      | some se => answered.drop (se-st.iac+1)
      | none => {answered with iac := st.iac+3, size := st.size-3}
    else st.drop 2

theorem scanCommand_size (st : Scan) : (scanCommand st).size ≤ st.size-2 := by
  unfold scanCommand Scan.drop
  dsimp only
  split
  · exact le_refl _
  · split
    · exact Int.sub_le_sub_left (by decide) _
    · split
      · split
        · rename_i se found
          have place := mystrchr_bounds found
          dsimp only
          omega
        · exact Int.sub_le_sub_left (by decide) _
      · exact le_refl _

/-- What a command does to the session: nothing, or one answer. -/
theorem scanCommand_answers (st : Scan) :
    (scanCommand st).session = st.session ∨
      (∃ optcode option, (scanCommand st).session =
        (respondTelnetOption optcode option st.session).2) ∨
      ∃ option, (scanCommand st).session = answerSuboption st option := by
  unfold scanCommand Scan.drop
  dsimp only
  split
  · exact Or.inl rfl
  · split
    · exact Or.inr (Or.inl ⟨_,_,rfl⟩)
    · split
      · split
        · exact Or.inr (Or.inr ⟨_,rfl⟩)
        · exact Or.inr (Or.inr ⟨_,rfl⟩)
      · exact Or.inl rfl

/-- The loop, entered with `iac` on an IAC and at least 2 bytes from there on. -/
def scanLoop (st : Scan) : Gateway :=
  let next := scanCommand st
  if next.size < 2 then next.toGateway
  else
    match _found : mystrchr next.buff.mem next.iac IAC next.size with
    | none => next.toGateway
    | some iac =>
      let size := next.size-(iac-next.iac)
      if size < 2 then next.toGateway else scanLoop {next with iac := iac, size := size}
termination_by st.size.toNat
decreasing_by
  have place : (scanCommand st).iac ≤ iac := (mystrchr_bounds _found).1
  have shorter := scanCommand_size st
  have enough : ¬(scanCommand st).size < 2 := by assumption
  omega

def processTelnetOptions (g : Gateway) : Gateway :=
  let (ptr,size) := bfPointToActivePortion g.buff
  match mystrchr g.buff.mem ptr IAC size with
  | none => g
  | some iac =>
    let size := size-(iac-ptr)
    if size < 2 then g else scanLoop {g with iac := iac, size := size}

def readSocket (reply : ReadReply) (g : Gateway) : Int × Gateway :=
  let result := readFromFdToBuffer reply g.buff
  let g := {g with buff := result.buff}
  if result.ret < 0 then (1,g)
  else if result.ret = 0 then (if bfeof g.buff then 1 else 0,g)
  else
    match bfstrchr g.buff IAC with
    | none => (0,g)
    | some _ => (0,processTelnetOptions g)

/-- An error of read_socket is one of its read(), with nothing decoded; what arrives
is decoded if there is an IAC. -/
theorem readSocket_cases (reply : ReadReply) (g : Gateway) :
    let result := readFromFdToBuffer reply g.buff
    (result.ret ≤ 0 ∧ (readSocket reply g).2 = {g with buff := result.buff} ∧
      ((readSocket reply g).1 ≠ 0 ↔ result.ret < 0 ∨ result.buff.eof)) ∨
    (0 < result.ret ∧ (readSocket reply g).1 = 0 ∧
      (bfstrchr result.buff IAC = none ∧ (readSocket reply g).2 = {g with buff := result.buff} ∨
        (∃ spot, bfstrchr result.buff IAC = some spot) ∧
          (readSocket reply g).2 = processTelnetOptions {g with buff := result.buff})) := by
  intro result
  unfold readSocket
  dsimp only
  by_cases failed : result.ret < 0
  · rw [if_pos failed]
    exact Or.inl ⟨failed.le,rfl,iff_of_true one_ne_zero (Or.inl failed)⟩
  · rw [if_neg failed]
    by_cases silent : result.ret = 0
    · rw [if_pos silent]
      refine Or.inl ⟨silent.le,rfl,?_⟩
      change (if result.buff.eof then (1 : Int) else 0) ≠ 0 ↔ _
      split
      · rename_i ended
        exact iff_of_true one_ne_zero (Or.inr ended)
      · rename_i opened
        exact iff_of_false (not_not.mpr rfl) (not_or.mpr ⟨failed,opened⟩)
    · rw [if_neg silent]
      refine Or.inr ⟨by omega,?_⟩
      cases search : bfstrchr result.buff IAC with
      | none => exact ⟨rfl,Or.inl ⟨rfl,rfl⟩⟩
      | some spot => exact ⟨rfl,Or.inr ⟨⟨spot,rfl⟩,rfl⟩⟩

def writeSerial (reply : WriteReply) (buff : Buffer) : Transfer :=
  let result := writeFromBufferToFd reply buff
  if result.ret < 0 then {result with ret := 1} else {result with ret := 0}

theorem writeSerial_buff (reply : WriteReply) (b : Buffer) :
    (writeSerial reply b).buff = (writeFromBufferToFd reply b).buff ∧
      (writeSerial reply b).moved = (writeFromBufferToFd reply b).moved := by
  unfold writeSerial
  dsimp only
  split
  · exact ⟨rfl,rfl⟩
  · exact ⟨rfl,rfl⟩

/-- What the session loop does when the socket is readable: write_serial follows
unless read_socket fails. The bytes for the serial port come with the state. -/
def socketToSerial (reply : ReadReply) (answer : WriteReply) (g : Gateway) : Gateway × List UInt8 :=
  let (error,g) := readSocket reply g
  if error ≠ 0 then (g,[])
  else
    let result := writeSerial answer g.buff
    ({g with buff := result.buff},result.moved)

theorem socketToSerial_session_eq (reply : ReadReply) (answer : WriteReply) (g : Gateway) :
    (socketToSerial reply answer g).1.session = (readSocket reply g).2.session := by
  unfold socketToSerial
  dsimp only
  split
  · rfl
  · rfl

end SerialIp

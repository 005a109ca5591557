import SerialIp.NegotiationRuns
import SerialIp.RawGateway
import SerialIp.SerialToSocket

/-! The loop of serial_ip_communication_process. Each turn waits in select() and then
reads and writes at most once in each direction; what select() and the calls behind it
answer is up to the world. A signal that ends the process ends the run with it. -/
namespace SerialIp
open Library Buffer

/-- The globals the loop reads. The poll intervals only bound the time in select(). -/
structure SessionConf where
  idletimer : Int
  rawFlag : Bool
  noquote : Bool

inductive Descriptor
  | sockfd
  | serial
  deriving DecidableEq

/-- The return of select(); with `ready` the descriptors it leaves in `read_fds`. -/
inductive Selected
  | error
  | timeout
  | ready (readFds : List Descriptor)

def Selected.readFds : Selected → List Descriptor
  | .error | .timeout => []
  | .ready readFds => readFds

/-- What the world does in one turn: the answer of select(), the seconds it took, the
answers of the calls on the two descriptors, and what the stack holds in raw mode. -/
structure Turn where
  selected : Selected
  elapsed : Int
  recv : ReadReply
  serialWrite : WriteReply
  read : ReadReply
  socketWrite : WriteReply
  frame : RawFrame
  pdu : OpPdu

/-- A call of write_serial, write_socket or, in raw mode, write(): the bytes it offered and
those taken. -/
structure WriteCall where
  offered : List UInt8
  moved : List UInt8

/-- The write() of raw.c, which keeps nothing for later. -/
def WriteCall.raw (offered : List UInt8) (answer : WriteReply) : WriteCall :=
  ⟨offered,offered.take (answer.count offered.length).toNat⟩

/-- `toSerial` and `toSocket` are the last calls of write_serial and write_socket, `rawToSerial`
and `rawToSocket` those of write() in raw mode. -/
structure SessionLoop where
  gateway : Gateway
  serialToSocket : Buffer
  idle : Bool
  idleCnt : Int
  error : Int
  toSerial : Option WriteCall
  toSocket : Option WriteCall
  rawToSerial : Option WriteCall
  rawToSocket : Option WriteCall

namespace SessionLoop

def start (conf : SessionConf) (s : Session) : SessionLoop where
  gateway := ⟨bfmalloc SIZE_BUFFER,
    if conf.rawFlag then {s with sabre := bfmalloc SIZE_BUFFER, clientLoggedIn := true}
    else sessionStart s⟩
  serialToSocket := bfmalloc SIZE_BUFFER
  idle := false
  idleCnt := 0
  error := 0
  toSerial := none
  toSocket := none
  rawToSerial := none
  rawToSocket := none

/-- The guard of the loop. -/
def running (t : SessionLoop) : Bool :=
  t.gateway.session.clientLoggedIn && !t.idle && decide (t.error = 0)

def checkIdle (conf : SessionConf) (t : SessionLoop) : SessionLoop :=
  if conf.idletimer > 0 ∧ t.idleCnt ≥ conf.idletimer ∧ !t.idle then
    let session :=
      if conf.rawFlag then (t.gateway.session.appendToSabre idleText).writeSabre.2
      else terminateIdle t.gateway.session
    {t with gateway := {t.gateway with session := session}, idle := true}
  else t

def fromSocket (conf : SessionConf) (turn : Turn) (t : SessionLoop) : SessionLoop :=
  if conf.rawFlag then
    let result := rawTcpSocketToSerial turn.recv turn.serialWrite turn.frame
    {t with error := result.error, rawToSerial := some (.raw result.written turn.serialWrite)}
  else
    let (error,gateway) := readSocket turn.recv t.gateway
    if error ≠ 0 then {t with gateway := gateway, error := error}
    else
      let result := writeSerial turn.serialWrite gateway.buff
      {t with gateway := {gateway with buff := result.buff}, error := result.ret,
              toSerial := some ⟨gateway.buff.content,result.moved⟩}

def fromSerial (conf : SessionConf) (turn : Turn) (t : SessionLoop) : SessionLoop :=
  if conf.rawFlag then
    let result := rawDataToTcpSocket turn.read turn.socketWrite turn.pdu
    {t with error := result.error, rawToSocket := some (.raw result.sent turn.socketWrite)}
  else
    let received := readSerial conf.noquote turn.read t.serialToSocket
    if received.ret ≠ 0 then {t with serialToSocket := received.buff, error := received.ret}
    else
      let result := writeSocket t.gateway.session.sessionState turn.socketWrite received.buff
      {t with serialToSocket := result.buff, error := result.ret,
              toSocket := some ⟨received.buff.content,result.moved⟩}

def origFds : List Descriptor := [.sockfd,.serial]

/-- One turn, with the descriptors that are read in it. -/
def turn (conf : SessionConf) (t : SessionLoop) (turn : Turn) : SessionLoop × List Descriptor :=
  let t := t.checkIdle conf
  -- taken from the copy that is handed to select(), which has yet to change it
  let checkSerialfd := decide (Descriptor.serial ∈ origFds)
  match turn.selected with
  | .error | .timeout => ({t with idleCnt := t.idleCnt+turn.elapsed},[])
  | .ready readFds =>
    let t := {t with idleCnt := 0}
    let (t,calls) :=
      if .sockfd ∈ readFds then (t.fromSocket conf turn,[.sockfd]) else (t,[])
    if .sockfd ∈ readFds ∧ t.error ≠ 0 then (t,calls)
    else if checkSerialfd then (t.fromSerial conf turn,calls ++ [.serial])
    else (t,calls)

def step (conf : SessionConf) (t : SessionLoop) (turn : Turn) : SessionLoop :=
  if t.running then (t.turn conf turn).1 else t

def calls (conf : SessionConf) (t : SessionLoop) (turn : Turn) : List Descriptor :=
  if t.running then (t.turn conf turn).2 else []

theorem checkIdle_error (conf : SessionConf) (t : SessionLoop) :
    (t.checkIdle conf).error = t.error := by
  unfold checkIdle
  split
  · rfl
  · rfl

/-- The rule for what a turn keeps; each direction is only turned to without an error. -/
theorem turn_keeps (holds : SessionLoop → Prop) {conf : SessionConf} {turn : Turn}
    (idle : ∀ t, holds t → holds (t.checkIdle conf))
    (count : ∀ t n, holds t → holds {t with idleCnt := n})
    (socket : ∀ t, holds t → t.error = 0 → holds (t.fromSocket conf turn))
    (serial : ∀ t, holds t → t.error = 0 → holds (t.fromSerial conf turn)) {t : SessionLoop}
    (start : holds t) (good : t.error = 0) : holds (t.turn conf turn).1 := by
  have entered := idle t start
  have same := (checkIdle_error conf t).trans good
  unfold SessionLoop.turn
  dsimp only
  cases turn.selected with
  | error | timeout => exact count _ _ entered
  | ready readFds =>
    dsimp only
    by_cases readable : Descriptor.sockfd ∈ readFds
    · have received := socket _ (count _ 0 entered) same
      simp only [readable,if_true,true_and]
      split
      · exact received
      · rename_i fine
        exact serial _ received (not_not.mp fine)
    · simp only [readable,if_false,false_and]
      exact serial _ (count _ 0 entered) same

theorem step_keeps (holds : SessionLoop → Prop) {conf : SessionConf}
    (kept : ∀ t turn, t.running → holds t → holds (t.turn conf turn).1) (t : SessionLoop) (turn : Turn)
    (start : holds t) : holds (t.step conf turn) := by
  unfold step
  split
  · rename_i running
    exact kept t turn running start
  · exact start

theorem running_error {t : SessionLoop} (running : t.running) : t.error = 0 := by
  simp only [SessionLoop.running,Bool.and_eq_true,decide_eq_true_eq] at running
  exact running.2

theorem fromSerial_gateway (conf : SessionConf) (turn : Turn) (t : SessionLoop) :
    (t.fromSerial conf turn).gateway = t.gateway := by
  unfold fromSerial
  split
  · rfl
  · dsimp only
    split
    · rfl
    · rfl

theorem fromSocket_gateway {conf : SessionConf} (telnet : conf.rawFlag = false) (turn : Turn)
    (t : SessionLoop) :
    (t.fromSocket conf turn).gateway = clientStep t.gateway (.readable turn.recv turn.serialWrite) := by
  unfold fromSocket clientStep socketToSerial
  rw [telnet,if_neg Bool.false_ne_true]
  dsimp only
  split
  · rfl
  · rfl

/-- In telnet mode a turn is, for the client, at most an idle message and one arrival. -/
theorem turn_gateway {conf : SessionConf} (telnet : conf.rawFlag = false) (t : SessionLoop)
    (turn : Turn) (good : t.error = 0) :
    ∃ events, (t.turn conf turn).1.gateway = Machine.run clientStep t.gateway events := by
  have further (u : SessionLoop) (event : ClientEvent)
      (before : ∃ events, u.gateway = Machine.run clientStep t.gateway events) :
      ∃ events, clientStep u.gateway event = Machine.run clientStep t.gateway events := by
    obtain ⟨events,same⟩ := before
    refine ⟨events ++ [event],?_⟩
    rw [same]
    exact (List.foldl_concat clientStep t.gateway event events).symm
  apply turn_keeps (fun u => ∃ events, u.gateway = Machine.run clientStep t.gateway events) _ _ _ _
    ⟨[],rfl⟩ good
  · intro u before
    unfold checkIdle
    rw [telnet]
    split
    · exact further u .idle before
    · exact before
  · intro u n before
    exact before
  · intro u before _
    rw [fromSocket_gateway telnet]
    exact further u _ before
  · intro u before _
    rw [fromSerial_gateway]
    exact before

/-- So the client side of the loop is a run of `clientStep`. -/
theorem run_gateway {conf : SessionConf} (telnet : conf.rawFlag = false) (t : SessionLoop)
    (turns : List Turn) : ∃ events,
      (Machine.run (step conf) t turns).gateway = Machine.run clientStep t.gateway events := by
  induction turns generalizing t with
  | nil => exact ⟨[],rfl⟩
  | cons turn turns ih =>
    have first : ∃ events, (t.step conf turn).gateway = Machine.run clientStep t.gateway events := by
      unfold step
      split
      · rename_i running
        exact turn_gateway telnet t turn (running_error running)
      · exact ⟨[],rfl⟩
    obtain ⟨early,begun⟩ := first
    obtain ⟨late,ended⟩ := ih (t.step conf turn)
    refine ⟨early ++ late,?_⟩
    rw [Machine.run_cons,ended,begun]
    exact List.foldl_append.symm

theorem calls_ready {conf : SessionConf} {t : SessionLoop} {turn : Turn} {readFds : List Descriptor}
    (running : t.running) (selected : turn.selected = .ready readFds) :
    t.calls conf turn = (if .sockfd ∈ readFds then [.sockfd] else []) ++
      if .sockfd ∈ readFds ∧
        ({t.checkIdle conf with idleCnt := 0}.fromSocket conf turn).error ≠ 0 then [] else [.serial] := by
  unfold calls SessionLoop.turn
  rw [if_pos running,selected]
  dsimp only
  by_cases readable : Descriptor.sockfd ∈ readFds
  · simp only [readable,if_true,true_and]
    split
    · rfl
    · rfl
  · simp only [readable,if_false,false_and]
    rfl

end SessionLoop

/-- A read() that ends the session: an error or the end of the file. -/
def ReadReply.Ends : ReadReply → Prop
  | .bytes data => data = []
  | .interrupted => False
  | .failed => True

theorem calNumbytesToRead_nonneg {b : Buffer} (invariant : Invariant b) :
    0 ≤ calNumbytesToRead b := by
  have holds := invariant.toValid.holds
  have stops := holds.stops
  have tail := holds.tail
  have bounded := invariant.bounded
  have origin := invariant.origin
  rw [calNumbytesToRead_eq holds]
  split_ifs <;> omega

theorem readFromFdToBuffer_ends {b : Buffer} (invariant : Invariant b) (opened : b.eof = false)
    (reply : ReadReply) (none : (readFromFdToBuffer reply b).ret ≤ 0) :
    ((readFromFdToBuffer reply b).ret < 0 ∨ (readFromFdToBuffer reply b).buff.eof) ↔
      0 < calNumbytesToRead b ∧ reply.Ends := by
  have asked := calNumbytesToRead_nonneg invariant
  unfold readFromFdToBuffer at none ⊢
  dsimp only at none ⊢
  by_cases full : calNumbytesToRead b ≤ 0
  · rw [if_pos full]
    simp [opened]
    omega
  · rw [if_neg full] at none ⊢
    cases reply with
    | failed => exact iff_of_true (Or.inl neg_one_lt_zero) ⟨by omega,trivial⟩
    | interrupted =>
      simp only [ReadReply.Ends,and_false,opened,lt_irrefl,Bool.false_eq_true,or_self]
    | bytes data =>
      dsimp only at none ⊢
      have short : data.take (calNumbytesToRead b).toNat = [] ↔ data = [] := by
        rw [List.take_eq_nil_iff]
        constructor
        · intro either
          exact either.resolve_left (by omega)
        · exact Or.inr
      by_cases empty : data = []
      · rw [if_pos (short.mpr empty)]
        exact iff_of_true (Or.inr rfl) ⟨by omega,empty⟩
      · rw [if_neg (mt short.mp empty)] at none
        have positive := List.length_pos_iff.mpr (mt short.mp empty)
        dsimp only at none
        omega

theorem readSocket_error_iff {g : Gateway} (invariant : Invariant g.buff)
    (opened : g.buff.eof = false) (reply : ReadReply) :
    (readSocket reply g).1 ≠ 0 ↔ 0 < calNumbytesToRead g.buff ∧ reply.Ends := by
  rcases readSocket_cases reply g with ⟨none,_,error⟩ | ⟨some,fine,_⟩
  · rw [error]
    exact readFromFdToBuffer_ends invariant opened reply none
  · refine iff_of_false (not_not.mpr fine) ?_
    intro ends
    have moved := (readFromFdToBuffer_ret g.buff reply).mp some
    apply moved
    unfold readFromFdToBuffer
    dsimp only
    rw [if_neg (not_le.mpr ends.1)]
    cases reply with
    | bytes data =>
      have empty : data = [] := ends.2
      simp [empty]
    | interrupted => exact ends.2.elim
    | failed => rfl

theorem readFromFdToBuffer_eof {b : Buffer} {reply : ReadReply}
    (moved : (readFromFdToBuffer reply b).moved ≠ []) :
    (readFromFdToBuffer reply b).buff.eof = b.eof := by
  unfold readFromFdToBuffer at moved ⊢
  dsimp only at moved ⊢
  split_ifs at moved ⊢
  · rfl
  · cases reply with
    | failed | interrupted => rfl
    | bytes data =>
      dsimp only at moved ⊢
      split_ifs at moved ⊢
      · exact absurd rfl moved
      · rfl

theorem writeFromBufferToFd_eof (b : Buffer) (reply : WriteReply) :
    (writeFromBufferToFd reply b).buff.eof = b.eof := by
  unfold writeFromBufferToFd bufferWritepointerPosition
  dsimp only
  split_ifs <;> rfl

/-- What arrives keeps the buffer in order, decoded or not, and the end of the file
is only seen with an error. -/
theorem readSocket_buffer {g : Gateway} (invariant : Invariant g.buff) (reply : ReadReply) :
    Invariant (readSocket reply g).2.buff ∧
      (g.buff.eof = false → (readSocket reply g).1 = 0 → (readSocket reply g).2.buff.eof = false) := by
  have read := (invariant.read reply).1
  have remove (b : Buffer) (ptr nbytes : Int) (given : 0 ≤ nbytes) (invariant : Invariant b) :
      Invariant (bfrmstr b ptr nbytes).2 := invariant.remove given
  have closed (b : Buffer) (ptr nbytes : Int) (_ : 0 ≤ nbytes) (opened : b.eof = false) :
      (bfrmstr b ptr nbytes).2.eof = false := by
    unfold bfrmstr
    split_ifs <;> exact opened
  rcases readSocket_cases reply g with ⟨_,same,error⟩ | ⟨some,_,same⟩
  · rw [same]
    refine ⟨read,fun _ fine => ?_⟩
    exact Bool.eq_false_iff.mpr fun ended => error.mpr (Or.inr ended) fine
  · have opened : g.buff.eof = false → (readFromFdToBuffer reply g.buff).buff.eof = false := by
      intro opened
      rw [readFromFdToBuffer_eof ((readFromFdToBuffer_ret g.buff reply).mp some)]
      exact opened
    rcases same with ⟨_,same⟩ | ⟨_,same⟩
    · rw [same]
      exact ⟨read,fun before _ => opened before⟩
    · rw [same]
      refine ⟨processTelnetOptions_buffer Invariant remove read,fun before _ => ?_⟩
      exact processTelnetOptions_buffer (fun b => b.eof = false) closed (opened before)

theorem writeFromBufferToFd_ret (b : Buffer) (reply : WriteReply) :
    (writeFromBufferToFd reply b).ret =
      if calNumbytesToWrite b ≤ 0 then calNumbytesToWrite b else reply.taken (calNumbytesToWrite b) := by
  unfold writeFromBufferToFd
  dsimp only
  split_ifs
  · rfl
  · rfl
  · rfl

theorem WriteReply.taken_neg {bytes : Int} (some : 0 ≤ bytes) (reply : WriteReply) :
    reply.taken bytes < 0 ↔ reply = .failed := by
  cases reply with
  | failed => exact iff_of_true neg_one_lt_zero rfl
  | all => exact iff_of_false (not_lt.mpr some) nofun
  | interrupted => exact iff_of_false (lt_irrefl 0) nofun
  | upTo limit =>
    refine iff_of_false ?_ nofun
    simp only [WriteReply.taken]
    omega

theorem writeSerial_error_iff {b : Buffer} (invariant : Invariant b) (reply : WriteReply) :
    (writeSerial reply b).ret ≠ 0 ↔ reply = .failed ∧ b.content ≠ [] := by
  have offered := calNumbytesToWrite_eq invariant.toValid.holds
  have error : (writeSerial reply b).ret ≠ 0 ↔ (writeFromBufferToFd reply b).ret < 0 := by
    unfold writeSerial
    dsimp only
    split
    · rename_i failed
      exact iff_of_true one_ne_zero failed
    · rename_i fine
      exact iff_of_false (not_not.mpr rfl) fine
  rw [error,writeFromBufferToFd_ret,offered]
  by_cases empty : b.content = []
  · simp [empty]
  · have positive := List.length_pos_iff.mpr empty
    rw [if_neg (by omega),WriteReply.taken_neg (Int.natCast_nonneg _)]
    exact (and_iff_left empty).symm

theorem rawTcpSocketToSerial_error_iff (recv : ReadReply) (answer : WriteReply) (frame : RawFrame) :
    (rawTcpSocketToSerial recv answer frame).error ≠ 0 ↔
      recv.data 256 = [] ∨ answer = .interrupted ∨ answer = .failed := by
  have bounds := recv.count_bounds 256
  have refused : answer.count (recv.count 256+1) < 0 ↔ answer = .interrupted ∨ answer = .failed := by
    have failed := WriteReply.taken_neg (show 0 ≤ recv.count 256+1 by omega) answer
    cases answer with
    | interrupted => exact iff_of_true neg_one_lt_zero (Or.inl rfl)
    | all | upTo _ | failed => simpa [WriteReply.count] using failed
  rw [← refused]
  unfold rawTcpSocketToSerial
  rw [readFromRawTcpBuffer_eq]
  dsimp only
  by_cases error : answer.count (recv.count 256+1) < 0
  · rw [if_pos error]
    exact iff_of_true one_ne_zero (Or.inr error)
  · rw [if_neg error]
    simp only [error,or_false]
    split
    · rename_i some
      refine iff_of_false (not_not.mpr rfl) ?_
      intro none
      rw [none,List.length_nil] at bounds
      omega
    · rename_i silent
      refine iff_of_true one_ne_zero (List.length_eq_zero_iff.mp ?_)
      omega

/-- The socket cannot be read, or the serial port not be written to. -/
def SocketEnds (conf : SessionConf) (turn : Turn) (g : Gateway) : Prop :=
  if conf.rawFlag then
    turn.recv.data 256 = [] ∨ turn.serialWrite = .interrupted ∨ turn.serialWrite = .failed
  else
    0 < calNumbytesToRead g.buff ∧ turn.recv.Ends ∨
      turn.serialWrite = .failed ∧ (readSocket turn.recv g).2.buff.content ≠ []

namespace SessionLoop

/-- The buffer from the socket is in order, and has not seen the end of the file while
the loop goes on. -/
structure Sound (t : SessionLoop) : Prop where
  invariant : Invariant t.gateway.buff
  opened : t.error = 0 → t.gateway.buff.eof = false

theorem start_sound (conf : SessionConf) (s : Session) : (start conf s).Sound :=
  ⟨bfmalloc_invariant SIZE_BUFFER,fun _ => rfl⟩

theorem Sound.checkIdle {t : SessionLoop} (sound : t.Sound) (conf : SessionConf) :
    (t.checkIdle conf).Sound := by
  unfold SessionLoop.checkIdle
  split
  · exact ⟨sound.invariant,sound.opened⟩
  · exact sound

theorem Sound.fromSocket {t : SessionLoop} (sound : t.Sound) (good : t.error = 0)
    (conf : SessionConf) (turn : Turn) : (t.fromSocket conf turn).Sound := by
  unfold SessionLoop.fromSocket
  split
  · exact ⟨sound.invariant,fun _ => sound.opened good⟩
  · obtain ⟨decoded,opened⟩ := readSocket_buffer sound.invariant turn.recv
    dsimp only
    split
    · rename_i failed
      exact ⟨decoded,fun fine => absurd fine failed⟩
    · rename_i fine
      have written := decoded.write turn.serialWrite
      refine ⟨?_,fun _ => ?_⟩
      · dsimp only
        rw [(writeSerial_buff _ _).1]
        exact written.1
      · dsimp only
        rw [(writeSerial_buff _ _).1,writeFromBufferToFd_eof]
        exact opened (sound.opened good) (not_not.mp fine)

theorem Sound.fromSerial {t : SessionLoop} (sound : t.Sound) (good : t.error = 0)
    (conf : SessionConf) (turn : Turn) : (t.fromSerial conf turn).Sound := by
  have kept : ∀ next : SessionLoop, next.gateway = t.gateway → next.Sound := by
    intro next same
    exact ⟨same ▸ sound.invariant,fun _ => same ▸ sound.opened good⟩
  unfold SessionLoop.fromSerial
  split
  · exact kept _ rfl
  · dsimp only
    split
    · exact kept _ rfl
    · exact kept _ rfl

theorem step_sound {conf : SessionConf} (t : SessionLoop) (turn : Turn) (sound : t.Sound) :
    (t.step conf turn).Sound := by
  apply step_keeps Sound _ t turn sound
  intro t turn running sound
  exact turn_keeps Sound (fun _ sound => sound.checkIdle conf)
    (fun _ _ sound => ⟨sound.invariant,sound.opened⟩)
    (fun _ sound good => sound.fromSocket good conf turn)
    (fun _ sound good => sound.fromSerial good conf turn) sound (running_error running)

theorem fromSocket_error_iff {conf : SessionConf} {turn : Turn} {t : SessionLoop} (sound : t.Sound)
    (good : t.error = 0) :
    (t.fromSocket conf turn).error ≠ 0 ↔ SocketEnds conf turn t.gateway := by
  unfold fromSocket SocketEnds
  cases conf.rawFlag with
  | true => exact rawTcpSocketToSerial_error_iff turn.recv turn.serialWrite turn.frame
  | false =>
    have invariant := sound.invariant
    have error := readSocket_error_iff invariant (sound.opened good) turn.recv
    dsimp only
    rw [if_neg Bool.false_ne_true,if_neg Bool.false_ne_true]
    by_cases failed : (readSocket turn.recv t.gateway).1 ≠ 0
    · rw [if_pos failed]
      exact iff_of_true failed (Or.inl (error.mp failed))
    · rw [if_neg failed]
      have decoded := (readSocket_buffer invariant turn.recv).1
      exact (writeSerial_error_iff decoded turn.serialWrite).trans
        (or_iff_right (mt error.mpr failed)).symm

/-- Every read of a turn is of a descriptor that select() reported. -/
def ReadsReported (conf : SessionConf) (t : SessionLoop) (turn : Turn) : Prop :=
  ∀ fd ∈ t.calls conf turn, fd ∈ turn.selected.readFds

/-- If select() reports anything it reports the serial port, or else the socket, where
the turn then ends. -/
def SerialAwaited (conf : SessionConf) (t : SessionLoop) (turn : Turn) : Prop :=
  t.running → ∀ readFds, turn.selected = .ready readFds →
    .serial ∈ readFds ∨ .sockfd ∈ readFds ∧ SocketEnds conf turn (t.checkIdle conf).gateway

theorem readsReported_iff {conf : SessionConf} {t : SessionLoop} (sound : t.Sound) (turn : Turn) :
    t.ReadsReported conf turn ↔ t.SerialAwaited conf turn := by
  unfold ReadsReported SerialAwaited
  by_cases running : t.running
  · cases selected : turn.selected with
    | error | timeout =>
      have none : t.calls conf turn = [] := by
        unfold calls SessionLoop.turn
        rw [if_pos running,selected]
      rw [none]
      exact iff_of_true (fun _ member => absurd member List.not_mem_nil) (fun _ _ => nofun)
    | ready readFds =>
      have entered := sound.checkIdle conf
      have good := checkIdle_error conf t
      rw [running_error running] at good
      have error : ({t.checkIdle conf with idleCnt := 0}.fromSocket conf turn).error ≠ 0 ↔
          SocketEnds conf turn (t.checkIdle conf).gateway :=
        fromSocket_error_iff ⟨entered.invariant,entered.opened⟩ good
      rw [calls_ready running selected,← error]
      simp only [running,true_implies,Selected.ready.injEq,forall_eq',Selected.readFds]
      by_cases readable : Descriptor.sockfd ∈ readFds
      · by_cases ends : ({t.checkIdle conf with idleCnt := 0}.fromSocket conf turn).error ≠ 0
        · simp [readable,ends]
        · simp [readable,ends]
      · simp [readable]
  · have none : t.calls conf turn = [] := if_neg running
    rw [none]
    exact iff_of_true (fun _ member => absurd member List.not_mem_nil)
      (fun started => absurd started running)

/-- In every run, in both modes: all reads are of reported descriptors if and only if
select() never reports the socket alone in a turn that the socket does not end. -/
theorem reads_reported_iff (conf : SessionConf) (s : Session) (turns : List Turn) :
    Machine.Along (step conf) (ReadsReported conf) (start conf s) turns ↔
      Machine.Along (step conf) (SerialAwaited conf) (start conf s) turns :=
  Machine.along_congr Sound step_sound (fun _ turn sound => readsReported_iff sound turn)
    (start_sound conf s) turns

set_option maxRecDepth 10000 in
/-- The client sends a byte while the machine is silent. -/
theorem serial_read_unreported : ¬∀ (conf : SessionConf) (s : Session) (turns : List Turn),
    Machine.Along (step conf) (ReadsReported conf) (start conf s) turns := by
  intro always
  let stack : Block UInt8 := ⟨fun _ => 0,[]⟩
  let turn : Turn :=
    ⟨.ready [.sockfd],1,.bytes [65],.all,.interrupted,.all,⟨stack,stack⟩,⟨stack,stack,0⟩⟩
  have reported := (always ⟨0,false,false⟩ (processStart ⟨⟨0,0,0xBD,0⟩,[]⟩) [turn]).1 .serial
    (by decide +kernel)
  exact absurd reported (by decide)

end SessionLoop

/-- The loop with all that has reached the machine and the client. -/
structure Watch where
  loop : SessionLoop
  toMachine : List UInt8
  toClient : List UInt8

namespace Watch

def start (conf : SessionConf) (s : Session) : Watch :=
  let loop := SessionLoop.start conf s
  ⟨loop,[],loop.gateway.session.wire.flatten⟩

/-- What a call has moved, if there was one. -/
def moved (last : Option WriteCall) : List UInt8 := last.elim [] WriteCall.moved

@[simp] theorem moved_none : moved none = [] := rfl
@[simp] theorem moved_some (call : WriteCall) : moved (some call) = call.moved := rfl

/-- Before a turn, when it has not written anything. -/
def entering (w : Watch) : SessionLoop :=
  {w.loop with toSerial := none, toSocket := none, rawToSerial := none, rawToSocket := none}

@[simp] theorem entering_gateway (w : Watch) : w.entering.gateway = w.loop.gateway := rfl
@[simp] theorem entering_toSerial (w : Watch) : w.entering.toSerial = none := rfl
@[simp] theorem entering_toSocket (w : Watch) : w.entering.toSocket = none := rfl
@[simp] theorem entering_rawToSerial (w : Watch) : w.entering.rawToSerial = none := rfl
@[simp] theorem entering_rawToSocket (w : Watch) : w.entering.rawToSocket = none := rfl

/-- Within a turn the gateway's own messages are sent before the data of the machine. -/
def step (conf : SessionConf) (w : Watch) (turn : Turn) : Watch :=
  let t := w.entering.step conf turn
  let said := t.gateway.session.wire.drop w.loop.gateway.session.wire.length
  ⟨t,w.toMachine ++ moved t.toSerial ++ moved t.rawToSerial,
    w.toClient ++ said.flatten ++ moved t.toSocket ++ moved t.rawToSocket⟩

end Watch
end SerialIp

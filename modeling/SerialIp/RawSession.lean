import SerialIp.IdleTimer

/-! Whole sessions of the raw gateway: what reaches the serial port and the client. Nothing
is escaped or kept for later, so a write that takes less than it was given loses the rest. -/
namespace SerialIp
open Library Buffer

/-- A piece of a stream with the answer to the write() that passes it on. -/
structure Passed where
  bytes : List UInt8
  answer : WriteReply

/-- What gets through of a piece with the byte behind it. -/
def Passed.through (terminator : UInt8) (passed : Passed) : List UInt8 :=
  (passed.bytes ++ [terminator]).take (passed.answer.count (passed.bytes.length+1)).toNat

theorem Passed.through_raw (terminator : UInt8) (passed : Passed) :
    (WriteCall.raw (passed.bytes ++ [terminator]) passed.answer).moved = passed.through terminator := by
  simp [WriteCall.raw,Passed.through]

theorem rawTcpSocketToSerial_stale {recv : ReadReply} (none : recv.data 256 = []) (answer : WriteReply)
    (frame : RawFrame) : (rawTcpSocketToSerial recv answer frame).error = 1 ∧
      (rawTcpSocketToSerial recv answer frame).written.length ≤ 1 := by
  have bounds := recv.count_bounds 256
  rw [none,List.length_nil] at bounds
  constructor
  · unfold rawTcpSocketToSerial
    rw [readFromRawTcpBuffer_eq]
    simp [← bounds.2.2]
  · rw [(rawTcpSocketToSerial_silent none answer frame).2,Block.read_length]
    omega

theorem rawDataToTcpSocket_sent {read : ReadReply}
    (count : read.count MAX_BUFFER_LENGTH = (read.data MAX_BUFFER_LENGTH).length)
    (answer : WriteReply) (pdu : OpPdu) :
    (rawDataToTcpSocket read answer pdu).sent = read.data MAX_BUFFER_LENGTH ++ [10] := by
  unfold rawDataToTcpSocket
  dsimp only
  have next : ((read.data MAX_BUFFER_LENGTH).length+1 : Int).toNat =
      (read.data MAX_BUFFER_LENGTH).length+1 := by omega
  rw [count,if_neg (by omega),next]
  exact Block.read_terminated ..

theorem rawDataToTcpSocket_unsent {read : ReadReply} (error : read.count MAX_BUFFER_LENGTH = -1)
    (answer : WriteReply) (pdu : OpPdu) : (rawDataToTcpSocket read answer pdu).sent = [] := by
  unfold rawDataToTcpSocket
  dsimp only
  rw [error]
  rfl

namespace SessionLoop

/-- What the client sends in a turn. -/
def fromClient (conf : SessionConf) (t : SessionLoop) (turn : Turn) : List Passed :=
  if .sockfd ∈ t.calls conf turn ∧ turn.recv.data 256 ≠ [] then
    [⟨turn.recv.data 256,turn.serialWrite⟩]
  else []

/-- What the serial port sends in a turn, which may be an empty piece. -/
def fromSerialPort (conf : SessionConf) (t : SessionLoop) (turn : Turn) : List Passed :=
  if .serial ∈ t.calls conf turn ∧ 0 ≤ turn.read.count MAX_BUFFER_LENGTH then
    [⟨turn.read.data MAX_BUFFER_LENGTH,turn.socketWrite⟩]
  else []

/-- The pieces from the serial port until the session is found idle. -/
def beforeIdle (conf : SessionConf) (t : SessionLoop) (turn : Turn) : List Passed :=
  if (t.checkIdle conf).idle then [] else t.fromSerialPort conf turn

/-- Those of the turn in which it is. -/
def whenIdle (conf : SessionConf) (t : SessionLoop) (turn : Turn) : List Passed :=
  if (t.checkIdle conf).idle then t.fromSerialPort conf turn else []

/-- The byte of the uninitialised array that is written when the client has closed. -/
def stale (conf : SessionConf) (t : SessionLoop) (turn : Turn) : List UInt8 :=
  if .sockfd ∈ t.calls conf turn ∧ turn.recv.data 256 = [] then
    (WriteCall.raw (turn.frame.rawBuffer.read 0 (turn.recv.count 256+1).toNat) turn.serialWrite).moved
  else []

/-- No array is overrun. -/
def InBounds (turn : Turn) : Prop :=
  turn.recv.count 256 ≤ 99 ∧ turn.read.count MAX_BUFFER_LENGTH ≤ 199

/-- Either function stores into its arrays only. -/
structure Contained (turn : Turn) : Prop where
  command : Block.Writes (Inside MAX_LEN_MESSAGE) turn.frame.command
    (rawTcpSocketToSerial turn.recv turn.serialWrite turn.frame).frame.command
  rawBuffer : Block.Writes (Inside 256) turn.frame.rawBuffer
    (rawTcpSocketToSerial turn.recv turn.serialWrite turn.frame).frame.rawBuffer
  data : Block.Writes (Inside MAX_BUFFER_LENGTH) turn.pdu.data
    (rawDataToTcpSocket turn.read turn.socketWrite turn.pdu).pdu.data

theorem contained {turn : Turn} (inside : InBounds turn) : Contained turn := by
  obtain ⟨command,rawBuffer⟩ :=
    (rawTcpSocketToSerial_inside_iff turn.recv turn.serialWrite turn.frame).mpr inside.1
  have data := (rawDataToTcpSocket_inside_iff turn.read turn.socketWrite turn.pdu).mpr inside.2
  exact ⟨command,rawBuffer,data.2⟩

/-- Of the buffers a turn in raw mode touches only the one of the idle notice. -/
structure RawTurn (conf : SessionConf) (t u : SessionLoop) (calls : List Descriptor) (turn : Turn) :
    Prop where
  gateway : u.gateway = (t.checkIdle conf).gateway
  toSerial : u.toSerial = t.toSerial
  toSocket : u.toSocket = t.toSocket
  rawToSerial : u.rawToSerial = if .sockfd ∈ calls then
    some (.raw (rawTcpSocketToSerial turn.recv turn.serialWrite turn.frame).written turn.serialWrite)
    else t.rawToSerial
  rawToSocket : u.rawToSocket = if .serial ∈ calls then
    some (.raw (rawDataToTcpSocket turn.read turn.socketWrite turn.pdu).sent turn.socketWrite)
    else t.rawToSocket

theorem checkIdle_calls (conf : SessionConf) (t : SessionLoop) :
    (t.checkIdle conf).toSerial = t.toSerial ∧ (t.checkIdle conf).toSocket = t.toSocket ∧
      (t.checkIdle conf).rawToSerial = t.rawToSerial ∧
      (t.checkIdle conf).rawToSocket = t.rawToSocket := by
  unfold checkIdle
  split
  · exact ⟨rfl,rfl,rfl,rfl⟩
  · exact ⟨rfl,rfl,rfl,rfl⟩

theorem turn_raw {conf : SessionConf} (raw : conf.rawFlag = true) (t : SessionLoop) (turn : Turn) :
    RawTurn conf t (t.turn conf turn).1 (t.turn conf turn).2 turn := by
  obtain ⟨toSerial,toSocket,rawToSerial,rawToSocket⟩ := checkIdle_calls conf t
  have serial : decide (Descriptor.serial ∈ origFds) = true := by decide
  unfold SessionLoop.turn fromSocket fromSerial
  cases turn.selected with
  | error | timeout => exact ⟨rfl,toSerial,toSocket,rawToSerial,rawToSocket⟩
  | ready readFds =>
    by_cases readable : Descriptor.sockfd ∈ readFds
    · by_cases failed : (rawTcpSocketToSerial turn.recv turn.serialWrite turn.frame).error ≠ 0
      · simp only [raw,readable,failed,if_true,true_and,not_false_eq_true,ne_eq]
        exact ⟨rfl,toSerial,toSocket,rfl,rawToSocket⟩
      · simp only [raw,serial,readable,failed,if_true,true_and,if_false]
        exact ⟨rfl,toSerial,toSocket,rfl,rfl⟩
    · simp only [raw,serial,readable,if_true,if_false,false_and]
      exact ⟨rfl,toSerial,toSocket,rawToSerial,rfl⟩

/-- The gateway gives up on a client from which nothing comes. -/
theorem silent_stops {conf : SessionConf} (raw : conf.rawFlag = true) {t : SessionLoop} {turn : Turn}
    (reads : .sockfd ∈ t.calls conf turn) (none : turn.recv.data 256 = []) :
    (t.step conf turn).running = false := by
  have running : t.running = true := by
    by_contra stopped
    simp [calls,stopped] at reads
  have selected : ∃ readFds, turn.selected = .ready readFds := by
    cases answer : turn.selected with
    | error | timeout => simp [calls,running,SessionLoop.turn,answer] at reads
    | ready readFds => exact ⟨readFds,rfl⟩
  obtain ⟨readFds,answer⟩ := selected
  have readable : .sockfd ∈ readFds := by
    rw [calls_ready running answer] at reads
    by_contra absent
    simp [absent] at reads
  have error := (rawTcpSocketToSerial_stale none turn.serialWrite turn.frame).1
  have stopped : (t.step conf turn).error = 1 := by
    rw [step,if_pos running]
    simp [SessionLoop.turn,answer,readable,fromSocket,raw,error]
  simp [SessionLoop.running,stopped]

end SessionLoop

/-- What write() takes of the idle notice. -/
def idleNotice (s : Session) : List UInt8 :=
  idleText.take ((s.replies.headD .all).taken idleText.length).toNat

/-- The buffer of the notice is empty before it, and large enough. -/
theorem idleNotice_said {s : Session} (empty : s.sabre = bfmalloc SIZE_BUFFER) :
    (s.appendToSabre idleText).writeSabre.2.wire = s.wire ++ [idleNotice s] := by
  have room : appended (bfmalloc SIZE_BUFFER) idleText.length = idleText.length := by decide
  have holds := bfstrncat_holds (bfmalloc_holds SIZE_BUFFER) idleText (le_refl _) (by rw [room]; omega)
  rw [room,List.nil_append,Int.toNat_natCast,List.take_length] at holds
  have offered := calNumbytesToWrite_eq holds
  have some : ¬(idleText.length : Int) ≤ 0 := by decide
  unfold Session.writeSabre Session.appendToSabre
  dsimp only
  rw [empty,offered,if_neg some]
  dsimp only
  rw [writeFromBufferToFd_moved holds]
  rfl

namespace Watch
open SessionLoop

/-- What the gateway itself tells the client in a turn. -/
def said (conf : SessionConf) (w : Watch) (turn : Turn) : List UInt8 :=
  ((w.step conf turn).loop.gateway.session.wire.drop w.loop.gateway.session.wire.length).flatten

theorem entering_running (conf : SessionConf) {w : Watch} (running : w.entering.running) (turn : Turn) :
    w.entering.step conf turn = (w.entering.turn conf turn).1 ∧
      w.entering.calls conf turn = (w.entering.turn conf turn).2 :=
  ⟨if_pos running,if_pos running⟩

theorem entering_stopped (conf : SessionConf) {w : Watch} (stopped : ¬w.entering.running) (turn : Turn) :
    w.entering.step conf turn = w.entering ∧ w.entering.calls conf turn = [] :=
  ⟨if_neg stopped,if_neg stopped⟩

section
variable {conf : SessionConf} (raw : conf.rawFlag = true)
include raw

theorem step_toMachine (w : Watch) (turn : Turn) : (w.step conf turn).toMachine = w.toMachine ++
    ((w.entering.fromClient conf turn).flatMap (Passed.through 0) ++ w.entering.stale conf turn) := by
  unfold Watch.step fromClient stale
  by_cases running : w.entering.running
  · have turned := turn_raw raw w.entering turn
    obtain ⟨step,calls⟩ := entering_running conf running turn
    rw [step,calls]
    dsimp only
    rw [turned.toSerial,turned.rawToSerial]
    by_cases reads : .sockfd ∈ (w.entering.turn conf turn).2
    · by_cases none : turn.recv.data 256 = []
      · simp [reads,none,(rawTcpSocketToSerial_silent none turn.serialWrite turn.frame).2]
      · simp [reads,none,← Passed.through_raw,
          (rawTcpSocketToSerial_delivered none turn.serialWrite turn.frame).2]
    · simp [reads]
  · obtain ⟨step,calls⟩ := entering_stopped conf running turn
    rw [step,calls]
    simp

theorem step_toClient (w : Watch) (turn : Turn) : (w.step conf turn).toClient = w.toClient ++
    w.said conf turn ++ (w.entering.fromSerialPort conf turn).flatMap (Passed.through 10) := by
  unfold said Watch.step fromSerialPort
  by_cases running : w.entering.running
  · have turned := turn_raw raw w.entering turn
    obtain ⟨step,calls⟩ := entering_running conf running turn
    rw [step,calls]
    dsimp only
    rw [turned.toSocket,turned.rawToSocket]
    by_cases reads : .serial ∈ (w.entering.turn conf turn).2
    · obtain count | ⟨error,none⟩ := turn.read.count_eq MAX_BUFFER_LENGTH
      · simp [reads,count,← Passed.through_raw,rawDataToTcpSocket_sent count]
      · simp [reads,error,rawDataToTcpSocket_unsent error,WriteCall.raw]
    · simp [reads]
  · obtain ⟨step,calls⟩ := entering_stopped conf running turn
    rw [step,calls]
    simp

end

/-- Everything of one kind in the turns of a session. -/
def total {β : Type} (conf : SessionConf) (w : Watch) (turns : List Turn)
    (out : SessionConf → SessionLoop → Turn → List β) : List β :=
  Machine.emits (step conf) (fun w => out conf w.entering) w turns

theorem stopped_stays (conf : SessionConf) {w : Watch} (stopped : w.loop.running = false) (turn : Turn) :
    w.entering.calls conf turn = [] ∧ w.said conf turn = [] ∧
      (w.step conf turn).loop.idle = w.loop.idle ∧ (w.step conf turn).loop.running = false := by
  obtain ⟨same,none⟩ := entering_stopped conf (Bool.eq_false_iff.mp stopped) turn
  refine ⟨none,?_,?_,?_⟩
  · unfold said Watch.step
    rw [same]
    simp
  · unfold Watch.step
    rw [same]
    rfl
  · unfold Watch.step
    rw [same]
    exact stopped

theorem idle_stops {conf : SessionConf} {w : Watch} (turn : Turn)
    (idle : (w.entering.checkIdle conf).idle = true) : (w.step conf turn).loop.running = false := by
  by_cases running : w.entering.running
  · have same := (turn_idle conf w.entering turn).1.trans idle
    have step := (entering_running conf running turn).1
    unfold Watch.step
    rw [step]
    simp [SessionLoop.running,same]
  · exact (stopped_stays conf (Bool.eq_false_iff.mpr running) turn).2.2.2

theorem run_fromSerialPort (conf : SessionConf) (w : Watch) (turns : List Turn) :
    total conf w turns fromSerialPort =
        total conf w turns beforeIdle ++ total conf w turns whenIdle ∧
      (total conf w turns whenIdle).length ≤ 1 := by
  have halts (w : Watch) (turn : Turn) (some : w.entering.whenIdle conf turn ≠ []) :
      (w.step conf turn).loop.running = false := by
    unfold whenIdle at some
    split at some
    · exact idle_stops turn ‹_›
    · contradiction
  have silent (w : Watch) (turn : Turn) (stopped : w.loop.running = false) :
      (w.step conf turn).loop.running = false ∧ w.entering.fromSerialPort conf turn = [] := by
    obtain ⟨none,_,_,still⟩ := stopped_stays conf stopped turn
    exact ⟨still,by simp [fromSerialPort,none]⟩
  constructor
  · refine Machine.emits_last (fun w : Watch => w.loop.running = false) ?_ halts ?_ w turns
    · intro w turn
      unfold beforeIdle whenIdle
      split
      · rfl
      · exact (List.append_nil _).symm
    · intro w turn stopped
      obtain ⟨still,none⟩ := silent w turn stopped
      exact ⟨still,by simp [beforeIdle,none]⟩
  · refine (Machine.emits_once (fun w : Watch => w.loop.running = false) ?_ halts ?_ w turns).1
    · intro w turn
      unfold whenIdle fromSerialPort
      split_ifs <;> simp
    · intro w turn stopped
      obtain ⟨still,none⟩ := silent w turn stopped
      exact ⟨still,by simp [whenIdle,none]⟩

section
variable {conf : SessionConf} (raw : conf.rawFlag = true)
include raw

theorem stale_stops {w : Watch} {turn : Turn} (some : w.entering.stale conf turn ≠ []) :
    (w.step conf turn).loop.running = false := by
  unfold stale at some
  split at some
  · rename_i closed
    exact silent_stops raw closed.1 closed.2
  · contradiction

theorem stale_once (w : Watch) (turns : List Turn) : (total conf w turns stale).length ≤ 1 ∧
    (total conf w turns stale ≠ [] → (Machine.run (step conf) w turns).loop.running = false) := by
  refine Machine.emits_once (fun w : Watch => w.loop.running = false) ?_
    (fun w turn some => stale_stops raw some) ?_ w turns
  · intro w turn
    unfold stale
    split
    · rename_i closed
      have bounds := turn.recv.count_bounds 256
      rw [closed.2,List.length_nil] at bounds
      simp only [WriteCall.raw,List.length_take,Block.read_length]
      omega
    · exact Nat.zero_le 1
  · intro w turn stopped
    obtain ⟨none,_,_,still⟩ := stopped_stays conf stopped turn
    exact ⟨still,by simp [stale,none]⟩

theorem run_toMachine (w : Watch) (turns : List Turn) :
    (Machine.run (step conf) w turns).toMachine = w.toMachine ++
      ((total conf w turns fromClient).flatMap (Passed.through 0) ++ total conf w turns stale) := by
  rw [Machine.emits_gathered Watch.toMachine (step_toMachine raw),
    Machine.emits_last (fun w => w.loop.running = false) (fun _ _ => rfl)
      (fun w turn some => stale_stops raw some) ?_,Machine.emits_map fun w turn => rfl]
  · rfl
  · intro w turn stopped
    obtain ⟨none,_,_,still⟩ := stopped_stays conf stopped turn
    exact ⟨still,by simp [fromClient,none]⟩

/-- The client has not been told anything yet. -/
structure Awake (s : Session) (w : Watch) : Prop where
  awake : w.loop.idle = false
  session : w.loop.gateway.session = {s with sabre := bfmalloc SIZE_BUFFER, clientLoggedIn := true}

/-- The notice is sent in the turn that makes the session idle, and in no other. -/
theorem step_said (w : Watch) (turn : Turn) :
    ((w.step conf turn).loop.gateway.session = w.loop.gateway.session ∧
        (w.step conf turn).loop.idle = w.loop.idle ∧ w.said conf turn = []) ∨
      ((w.entering.checkIdle conf).idle = true ∧ (w.step conf turn).loop.idle = true ∧
        0 < conf.idletimer ∧ (w.step conf turn).loop.gateway.session =
          (w.loop.gateway.session.appendToSabre idleText).writeSabre.2) := by
  by_cases running : w.entering.running
  · have turned := (turn_raw raw w.entering turn).gateway
    have idle := (turn_idle conf w.entering turn).1
    have step := (entering_running conf running turn).1
    unfold said Watch.step
    rw [step]
    dsimp only
    rw [turned]
    unfold checkIdle at idle ⊢
    by_cases due : conf.idletimer > 0 ∧ w.entering.idleCnt ≥ conf.idletimer ∧ !w.entering.idle
    · rw [if_pos due] at idle ⊢
      exact Or.inr ⟨rfl,idle,due.1,if_pos raw⟩
    · rw [if_neg due] at idle ⊢
      exact Or.inl ⟨rfl,idle,by simp⟩
  · have stopped := stopped_stays conf (Bool.eq_false_iff.mpr running) turn
    have step := (entering_stopped conf running turn).1
    refine Or.inl ⟨?_,stopped.2.2.1,stopped.2.1⟩
    unfold Watch.step
    rw [step]
    rfl

theorem step_awake {s : Session} {w : Watch} (awake : Awake s w) (turn : Turn) :
    (Awake s (w.step conf turn) ∧ w.said conf turn = []) ∨
      ((w.step conf turn).loop.idle = true ∧ 0 < conf.idletimer ∧ w.said conf turn = idleNotice s) := by
  obtain ⟨session,idle,quiet⟩ | ⟨_,idle,timed,session⟩ := step_said raw w turn
  · exact Or.inl ⟨⟨idle.trans awake.awake,session.trans awake.session⟩,quiet⟩
  · have told := @idleNotice_said w.loop.gateway.session (by rw [awake.session])
    refine Or.inr ⟨idle,timed,?_⟩
    rw [said,session,told,List.drop_left,awake.session]
    simp [idleNotice]

theorem run_said {s : Session} {w : Watch} (awake : Awake s w) (turns : List Turn) :
    Machine.emits (step conf) (said conf) w turns =
        (if (Machine.run (step conf) w turns).loop.idle then idleNotice s else []) ∧
      ((Machine.run (step conf) w turns).loop.idle = true → 0 < conf.idletimer) := by
  induction turns generalizing w with
  | nil =>
    rw [Machine.run_nil,awake.awake]
    exact ⟨rfl,nofun⟩
  | cons turn turns ih =>
    rw [Machine.emits,Machine.run_cons]
    obtain ⟨still,quiet⟩ | ⟨idle,timed,told⟩ := step_awake raw awake turn
    · rw [quiet]
      exact ih still
    · have stopped : (w.step conf turn).loop.running = false := by simp [SessionLoop.running,idle]
      have stays (w : Watch) (turn : Turn) (now : w.loop.running = false ∧ w.loop.idle = true) :
          ((w.step conf turn).loop.running = false ∧ (w.step conf turn).loop.idle = true) ∧
            w.said conf turn = [] := by
        obtain ⟨_,none,same,still⟩ := stopped_stays conf now.1 turn
        exact ⟨⟨still,same.trans now.2⟩,none⟩
      have ended := Machine.invariant_run (fun w => w.loop.running = false ∧ w.loop.idle = true)
        (fun w turn now => (stays w turn now).1) ⟨stopped,idle⟩ turns
      rw [Machine.emits_halted (fun w => w.loop.running = false ∧ w.loop.idle = true) stays
        ⟨stopped,idle⟩,if_pos ended.2,told,List.append_nil]
      exact ⟨rfl,fun _ => timed⟩

theorem run_toClient {s : Session} {w : Watch} (awake : Awake s w) (turns : List Turn) :
    (Machine.run (step conf) w turns).toClient =
      w.toClient ++ ((total conf w turns beforeIdle).flatMap (Passed.through 10) ++
        ((if (Machine.run (step conf) w turns).loop.idle then idleNotice s else []) ++
          (total conf w turns whenIdle).flatMap (Passed.through 10))) := by
  have quiet (w : Watch) (turn : Turn) (awake : (w.entering.checkIdle conf).idle ≠ true) :
      w.said conf turn = [] := by
    obtain ⟨_,_,none⟩ | ⟨idle,_⟩ := step_said raw w turn
    · exact none
    · exact absurd idle awake
  have halts (w : Watch) (turn : Turn) (some : w.said conf turn ++
      (w.entering.whenIdle conf turn).flatMap (Passed.through 10) ≠ []) :
      (w.step conf turn).loop.running = false := by
    by_contra running
    have awake := mt (idle_stops turn) running
    exact some (by rw [quiet w turn awake,whenIdle,if_neg awake]; rfl)
  have silent (w : Watch) (turn : Turn) (stopped : w.loop.running = false) :
      (w.step conf turn).loop.running = false ∧ w.said conf turn = [] ∧
        w.entering.fromSerialPort conf turn = [] := by
    obtain ⟨none,nothing,_,still⟩ := stopped_stays conf stopped turn
    exact ⟨still,nothing,by simp [fromSerialPort,none]⟩
  have each (w : Watch) (turn : Turn) : w.said conf turn ++
      (w.entering.fromSerialPort conf turn).flatMap (Passed.through 10) =
        (w.entering.beforeIdle conf turn).flatMap (Passed.through 10) ++ (w.said conf turn ++
          (w.entering.whenIdle conf turn).flatMap (Passed.through 10)) := by
    unfold beforeIdle whenIdle
    split
    · rfl
    · rw [quiet w turn ‹_›]
      exact (List.append_nil _).symm
  rw [Machine.emits_gathered Watch.toClient fun w turn =>
    (step_toClient raw w turn).trans (List.append_assoc ..)]
  rw [Machine.emits_last (fun w : Watch => w.loop.running = false) each halts,
    Machine.emits_last (fun w : Watch => w.loop.running = false) (fun _ _ => rfl),
    (run_said raw awake turns).1,Machine.emits_map fun _ _ => rfl,Machine.emits_map fun _ _ => rfl]
  · rfl
  · intro w turn some
    exact halts w turn (List.append_ne_nil_of_right_ne_nil _ some)
  · intro w turn stopped
    exact ⟨(silent w turn stopped).1,(silent w turn stopped).2.1⟩
  · intro w turn stopped
    obtain ⟨still,_,none⟩ := silent w turn stopped
    exact ⟨still,by simp [beforeIdle,none]⟩

end
end Watch

open Watch SessionLoop

/-- In a whole session the serial port gets each piece from the client with a NUL behind it and
the client each one from the port with a newline, no byte changed; only what a write() does not
take is missing, one stale byte may follow when the client closes, and the notice of an idle
session comes before what its last turn reads. -/
theorem raw_session_relayed (conf : SessionConf) (raw : conf.rawFlag = true) (s : Session)
    (turns : List Turn) (inside : ∀ turn ∈ turns, InBounds turn) :
    let start := Watch.start conf s
    let w := Machine.run (Watch.step conf) start turns
    (∀ turn ∈ turns, Contained turn) ∧
      w.toMachine = (total conf start turns fromClient).flatMap (Passed.through 0) ++
        total conf start turns stale ∧
      (total conf start turns stale).length ≤ 1 ∧
      (total conf start turns stale ≠ [] → w.loop.running = false) ∧
      w.toClient = s.wire.flatten ++ ((total conf start turns beforeIdle).flatMap (Passed.through 10) ++
        ((if w.loop.idle then idleNotice s else []) ++
          (total conf start turns whenIdle).flatMap (Passed.through 10))) ∧
      total conf start turns fromSerialPort =
        total conf start turns beforeIdle ++ total conf start turns whenIdle ∧
      (total conf start turns whenIdle).length ≤ 1 ∧
      (w.loop.idle = true → 0 < conf.idletimer ∧ w.loop.running = false) := by
  intro start w
  have awake : Awake s start := ⟨rfl,if_pos raw⟩
  have once := stale_once raw start turns
  obtain ⟨split,last⟩ := run_fromSerialPort conf start turns
  refine ⟨fun turn member => contained (inside turn member),run_toMachine raw start turns,once.1,
    once.2,?_,split,last,?_⟩
  · have told : start.toClient = s.wire.flatten := by
      change (if conf.rawFlag then _ else _ : Session).wire.flatten = _
      rw [if_pos raw]
    rw [← told]
    exact run_toClient raw awake turns
  · exact fun idle => ⟨(run_said raw awake turns).2 idle,by simp [SessionLoop.running,idle]⟩

/-- The machine is silent until the client is, then it sends a last byte. -/
theorem raw_session_relayed_idle :
    let conf : SessionConf := ⟨5,true,false⟩
    let stack : Block UInt8 := ⟨fun _ => 7,[]⟩
    let start := Watch.start conf (processStart ⟨⟨0,0,0xBD,0⟩,[]⟩)
    let turns : List Turn := [⟨.ready [.sockfd],0,.bytes [65,IAC],.all,.bytes [66],.all,⟨stack,stack⟩,
      ⟨stack,stack,0⟩⟩,⟨.timeout,5,.failed,.all,.failed,.all,⟨stack,stack⟩,⟨stack,stack,0⟩⟩,
      ⟨.ready [.serial],0,.failed,.all,.bytes [67],.all,⟨stack,stack⟩,⟨stack,stack,0⟩⟩]
    let w := Machine.run (Watch.step conf) start turns
    w.toMachine = [65,IAC,0] ∧ w.toClient = [66,10] ++ (idleText ++ [67,10]) ∧ w.loop.running = false := by
  intro conf stack start turns
  have inside : ∀ turn ∈ turns, InBounds turn := by
    simp only [turns,List.forall_mem_cons,InBounds]
    decide
  obtain ⟨_,machine,_,_,client,_,_,ends⟩ := raw_session_relayed conf rfl _ turns inside
  dsimp only
  rw [machine,client]
  exact ⟨by decide +kernel,by decide +kernel,(ends (by decide +kernel)).2⟩

end SerialIp

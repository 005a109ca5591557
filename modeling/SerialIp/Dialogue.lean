import SerialIp.Service
import SerialIp.SessionEnd
import SerialIp.TelnetDecoding

/-! A whole session between the client and the machine on the serial line, when nothing
fails: the two only see the service and each other's bytes. The loop of the session refines
this, and the buffers in between are empty after every turn. -/
namespace SerialIp
open Library Buffer Session

/-- Data for the client: what stands for an IAC is a pair of them. -/
def ClientUnit.text (bytes : List UInt8) : List ClientUnit :=
  bytes.map fun byte => if marker : byte = IAC then .quoted else .data byte marker

theorem ClientUnit.text_encode (bytes : List UInt8) :
    (text bytes).flatMap encode = stuff IAC bytes := by
  induction bytes with
  | nil => rfl
  | cons byte bytes ih =>
    simp only [text,List.map_cons,List.flatMap_cons] at ih ⊢
    rw [ih]
    by_cases marker : byte = IAC
    · subst byte
      rw [stuff_marker]
      rfl
    · rw [dif_neg marker,stuff_other marker]
      rfl

namespace Service

/-- The farewell to a client that has been idle too long. -/
def dismiss (v : Service) : Service × List ClientUnit :=
  let ledger := v.ledger.send .DO TELOPT_LOGOUT
  ({v with ledger := ledger},ClientUnit.text idleText ++
    (ledger.log.entries.drop v.ledger.log.entries.length).map fun command =>
      .negotiation command.1 command.2)

end Service

/-- One turn of the loop with what the client and the machine have sent by then. -/
structure Exchange where
  selected : Selected
  elapsed : Int
  units : List TelnetUnit
  data : List UInt8
  frame : RawFrame
  pdu : OpPdu

/-- A descriptor without data would block. -/
def arrival (bytes : List UInt8) : ReadReply := if bytes = [] then .interrupted else .bytes bytes

namespace Exchange

def turn (exchange : Exchange) : Turn where
  selected := exchange.selected
  elapsed := exchange.elapsed
  recv := arrival (exchange.units.flatMap TelnetUnit.encode)
  serialWrite := .all
  read := arrival exchange.data
  socketWrite := .all
  frame := exchange.frame
  pdu := exchange.pdu

/-- What arrives in a turn fits into the buffers, that of the machine with every IAC doubled. -/
structure Fits (exchange : Exchange) : Prop where
  coded : ∀ unit ∈ exchange.units, unit.Coded
  units : ((exchange.units.flatMap TelnetUnit.encode).length : Int) ≤ SIZE_BUFFER
  data : (exchange.data.length + exchange.data.count IAC : Int) ≤ SIZE_BUFFER

end Exchange

structure Dialogue where
  service : Service
  idle : Bool
  idleCnt : Int
  toMachine : List UInt8
  toClient : List ClientUnit

namespace Dialogue

def start (s : Session) : Dialogue := ⟨Service.start s,false,0,[],offers⟩

def running (d : Dialogue) : Bool := d.service.loggedIn && !d.idle

def checkIdle (conf : SessionConf) (d : Dialogue) : Dialogue :=
  if conf.idletimer > 0 ∧ d.idleCnt ≥ conf.idletimer ∧ !d.idle then
    {d with service := d.service.dismiss.1, idle := true, toClient := d.toClient ++ d.service.dismiss.2}
  else d

def fromClient (units : List TelnetUnit) (d : Dialogue) : Dialogue :=
  {d with
    service := (d.service.takeAll units).1
    toMachine := d.toMachine ++ units.flatMap TelnetUnit.decoded
    toClient := d.toClient ++ (d.service.takeAll units).2}

def fromMachine (data : List UInt8) (d : Dialogue) : Dialogue :=
  {d with toClient := d.toClient ++ ClientUnit.text data}

def turn (conf : SessionConf) (d : Dialogue) (exchange : Exchange) : Dialogue :=
  let d := d.checkIdle conf
  match exchange.selected with
  | .error | .timeout => {d with idleCnt := d.idleCnt+exchange.elapsed}
  | .ready readFds =>
    let d := {d with idleCnt := 0}
    let d := if .sockfd ∈ readFds then d.fromClient exchange.units else d
    d.fromMachine exchange.data

def step (conf : SessionConf) (d : Dialogue) (exchange : Exchange) : Dialogue :=
  if d.running then d.turn conf exchange else d

end Dialogue

/-- An empty buffer of the session that has not seen the end of its file. -/
structure Drained (b : Buffer) : Prop where
  invariant : Invariant b
  empty : b.content = []
  size : b.size = SIZE_BUFFER
  opened : b.eof = false

structure Conducts (t : SessionLoop) (d : Dialogue) : Prop where
  serves : Serves t.gateway.session d.service
  inbound : Drained t.gateway.buff
  outbound : Drained t.serialToSocket
  fine : t.error = 0
  idle : t.idle = d.idle
  idleCnt : t.idleCnt = d.idleCnt

theorem Conducts.running {t : SessionLoop} {d : Dialogue} (conducts : Conducts t d) :
    t.running = d.running := by
  unfold SessionLoop.running Dialogue.running
  rw [conducts.serves.loggedIn,conducts.idle,conducts.fine]
  simp

theorem terminateIdle_serves {s : Session} {v : Service} (serves : Serves s v) :
    Serves (terminateIdle s) v.dismiss.1 ∧ Said v.dismiss.2 s (terminateIdle s) := by
  have fits : (idleText.length : Int) ≤ s.sabre.size := by
    rw [serves.capacity]
    decide
  obtain ⟨_,wire,settled⟩ := transmit_whole serves.records.settled _ (by decide) fits
  have transmits := (appendToSabre_transmits idleText s).trans (writeSabre_transmits _)
  have records : Records (s.appendToSabre idleText).writeSabre.2 v.ledger :=
    transmit_records serves.records (idleText.drop 2) (Or.inl (by decide))
  have told : Serves (s.appendToSabre idleText).writeSabre.2 v := by
    refine ⟨records,?_,?_,?_,?_,?_,?_,serves.whole,(transmit_size idleText s).trans serves.capacity⟩
    · rw [transmits.device]
      exact serves.line
    · rw [transmits.device]
      exact serves.succeeds
    · rw [transmits]
      exact serves.asking
    · rw [transmits]
      exact serves.loggedIn
    · rw [transmits]
      exact serves.plenty
    · rw [transmits]
      exact serves.signed
  have said : Said (ClientUnit.text idleText) s (s.appendToSabre idleText).writeSabre.2 := by
    refine ⟨[idleText],wire,?_⟩
    rw [ClientUnit.text_encode,stuff_of_notMem (by decide)]
    rfl
  obtain ⟨new,announces⟩ := sendTelnetOption_announces settled .DO TELOPT_LOGOUT
  obtain ⟨served,more⟩ := announces.serves told (sendTelnetOption_records records .DO TELOPT_LOGOUT)
  rw [sendTelnetOption_loggedIn,told.loggedIn] at served
  exact ⟨served,said.trans more⟩

theorem checkIdle_conducts {conf : SessionConf} (telnet : conf.rawFlag = false) {t : SessionLoop}
    {d : Dialogue} (conducts : Conducts t d) :
    Conducts (t.checkIdle conf) (d.checkIdle conf) ∧
      (t.checkIdle conf).toSerial = t.toSerial ∧ (t.checkIdle conf).toSocket = t.toSocket ∧
      (d.checkIdle conf).toMachine = d.toMachine ∧
      ∃ said, Said said t.gateway.session (t.checkIdle conf).gateway.session ∧
        (d.checkIdle conf).toClient = d.toClient ++ said := by
  unfold SessionLoop.checkIdle Dialogue.checkIdle
  rw [conducts.idleCnt,conducts.idle]
  split
  · obtain ⟨serves,said⟩ := terminateIdle_serves conducts.serves
    rw [telnet]
    exact ⟨⟨serves,conducts.inbound,conducts.outbound,conducts.fine,rfl,rfl⟩,rfl,rfl,rfl,
      _,said,rfl⟩
  · exact ⟨conducts,rfl,rfl,rfl,[],Said.refl _,(List.append_nil _).symm⟩

theorem Drained.holds {b : Buffer} (drained : Drained b) : Holds b 0 [] := by
  have holds := drained.invariant.toValid.holds
  rw [drained.empty] at holds
  have counted := holds.counted
  rw [(drained.invariant.rewound counted).2] at holds
  exact holds

theorem Drained.asks {b : Buffer} (drained : Drained b) : calNumbytesToRead b = SIZE_BUFFER := by
  rw [calNumbytesToRead_eq drained.holds,if_pos rfl,drained.size]

theorem Drained.interrupted {b : Buffer} (drained : Drained b) :
    readFromFdToBuffer .interrupted b = ⟨0,b,[]⟩ := by
  unfold readFromFdToBuffer
  rw [drained.asks,if_neg (by decide)]

/-- One write() that takes everything leaves nothing. -/
theorem drained_write {b : Buffer} {start : Int} {xs : List UInt8} (invariant : Invariant b)
    (holds : Holds b start xs) (size : b.size = SIZE_BUFFER) (opened : b.eof = false) :
    (writeFromBufferToFd .all b).moved = xs ∧ ¬(writeFromBufferToFd .all b).ret < 0 ∧
      Drained (writeFromBufferToFd .all b).buff := by
  obtain ⟨moved,ret,empty⟩ := writeFromBufferToFd_all holds
  refine ⟨moved,by omega,(invariant.write .all).1,empty.content_eq,?_,?_⟩
  · rw [writeFromBufferToFd_size]
    exact size
  · rw [writeFromBufferToFd_eof]
    exact opened

theorem TelnetUnit.encode_ne_nil (unit : TelnetUnit) : unit.encode ≠ [] := by
  cases unit <;> exact List.cons_ne_nil _ _

theorem readSocket_quiet {g : Gateway} (drained : Drained g.buff) :
    readSocket .interrupted g = (0,g) := by
  unfold readSocket
  rw [drained.interrupted]
  dsimp only
  rw [if_neg (by decide),if_pos rfl]
  change ((if g.buff.eof then 1 else 0),g) = _
  rw [drained.opened]
  rfl

/-- Whole units that arrive in an empty buffer are decoded and answered. -/
theorem readSocket_serves {g : Gateway} {v : Service} (drained : Drained g.buff)
    (serves : Serves g.session v) {units : List TelnetUnit} (coded : ∀ unit ∈ units, unit.Coded)
    (fits : ((units.flatMap TelnetUnit.encode).length : Int) ≤ SIZE_BUFFER) :
    ∃ next, readSocket (arrival (units.flatMap TelnetUnit.encode)) g = (0,next) ∧
      (∃ start, Holds next.buff start (units.flatMap TelnetUnit.decoded)) ∧
      Invariant next.buff ∧ next.buff.size = SIZE_BUFFER ∧ next.buff.eof = false ∧
      Serves next.session (v.takeAll units).1 ∧ Said (v.takeAll units).2 g.session next.session := by
  cases units with
  | nil =>
    exact ⟨g,readSocket_quiet drained,⟨0,drained.holds⟩,drained.invariant,drained.size,
      drained.opened,serves,Said.refl _⟩
  | cons unit units =>
    have some : (unit::units).flatMap TelnetUnit.encode ≠ [] := by
      rw [List.flatMap_cons]
      exact List.append_ne_nil_of_left_ne_nil unit.encode_ne_nil _
    have read : arrival ((unit::units).flatMap TelnetUnit.encode) =
        .bytes ((unit::units).flatMap TelnetUnit.encode) := if_neg some
    obtain ⟨buff,arrived,capacity,scanned⟩ :=
      readSocket_chunk drained.holds drained.size ⟨some,fits⟩
    have kept := readSocket_buffer drained.invariant
      (.bytes ((unit::units).flatMap TelnetUnit.encode))
    obtain ⟨left,_⟩ := @processTelnetOptions_holds ⟨buff,g.session⟩ 0 _ arrived
    have served := @processTelnetOptions_serves ⟨buff,g.session⟩ 0 _ v coded arrived serves
    rw [scanned] at kept
    rw [read]
    refine ⟨_,scanned,left,kept.1,?_,kept.2 drained.opened rfl,served⟩
    rw [processTelnetOptions_capacity]
    exact capacity

theorem fromSocket_conducts {conf : SessionConf} (telnet : conf.rawFlag = false) {t : SessionLoop}
    {d : Dialogue} (conducts : Conducts t d) {exchange : Exchange} (fits : exchange.Fits) :
    Conducts (t.fromSocket conf exchange.turn) (d.fromClient exchange.units) ∧
      (t.fromSocket conf exchange.turn).toSocket = t.toSocket ∧
      Watch.moved (t.fromSocket conf exchange.turn).toSerial =
        exchange.units.flatMap TelnetUnit.decoded ∧
      Said (d.service.takeAll exchange.units).2 t.gateway.session
        (t.fromSocket conf exchange.turn).gateway.session := by
  obtain ⟨next,read,⟨start,holds⟩,invariant,size,opened,serves,said⟩ :=
    readSocket_serves conducts.inbound conducts.serves fits.coded fits.units
  obtain ⟨moved,taken,drained⟩ := drained_write invariant holds size opened
  have result : t.fromSocket conf exchange.turn = {t with
      gateway := {next with buff := (writeFromBufferToFd .all next.buff).buff}, error := 0,
      toSerial := some ⟨next.buff.content,(writeFromBufferToFd .all next.buff).moved⟩} := by
    unfold SessionLoop.fromSocket Exchange.turn writeSerial
    rw [telnet,read]
    dsimp only
    rw [if_neg taken]
    rfl
  rw [result]
  exact ⟨⟨serves,drained,conducts.outbound,rfl,conducts.idle,conducts.idleCnt⟩,rfl,moved,said⟩

/-- The rule for what every insertion of the escape pass keeps. -/
theorem escapeLoop_keeps (holds : Buffer → Prop)
    (insert : ∀ b ptr, holds b → holds (bfinsch b ptr IAC).2) (iac size : Int) {b : Buffer}
    (start : holds b) : holds (escapeLoop iac size b) := by
  fun_induction escapeLoop iac size b with
  | case1 iac size b => exact insert b iac start
  | case2 iac size b next more ptr left positive place found ih => exact ih (insert b iac start)
  | case3 iac size b => exact insert b iac start

theorem readSerial_eof (noquote : Bool) {reply : ReadReply} {b : Buffer}
    (delivers : (readFromFdToBuffer reply b).moved ≠ []) :
    (readSerial noquote reply b).buff.eof = b.eof := by
  have same : (readFromFdToBuffer reply b).buff.eof = b.eof := readFromFdToBuffer_eof delivers
  have inserted (c : Buffer) (ptr : Int) (kept : c.eof = b.eof) :
      (bfinsch c ptr IAC).2.eof = b.eof := by
    unfold bfinsch
    split_ifs <;> exact kept
  have escaped : (escapeIacChars (readFromFdToBuffer reply b).buff).eof = b.eof := by
    unfold escapeIacChars
    dsimp only
    split
    · exact same
    · exact escapeLoop_keeps (fun c => c.eof = b.eof) inserted _ _ same
  unfold readSerial
  dsimp only
  split_ifs <;> try exact same
  split <;> first | exact same | exact escaped

/-- What arrives from the machine in an empty buffer is escaped there. -/
theorem readSerial_drained {b : Buffer} (drained : Drained b) {data : List UInt8}
    (fits : (data.length + data.count IAC : Int) ≤ SIZE_BUFFER) :
    (readSerial false (arrival data) b).ret = 0 ∧
      Invariant (readSerial false (arrival data) b).buff ∧
      Holds (readSerial false (arrival data) b).buff 0 (stuff IAC data) ∧
      (readSerial false (arrival data) b).buff.size = SIZE_BUFFER ∧
      (readSerial false (arrival data) b).buff.eof = false := by
  by_cases none : data = []
  · have quiet : readSerial false .interrupted b = ⟨0,b,[]⟩ := by
      unfold readSerial
      rw [drained.interrupted]
      dsimp only
      rw [if_neg (by decide),if_pos rfl]
      unfold bfeof
      rw [drained.opened]
      rfl
    rw [none]
    change (readSerial false .interrupted b).ret = 0 ∧ Invariant (readSerial false .interrupted b).buff ∧
      Holds (readSerial false .interrupted b).buff 0 (stuff IAC []) ∧
      (readSerial false .interrupted b).buff.size = SIZE_BUFFER ∧
      (readSerial false .interrupted b).buff.eof = false
    rw [quiet]
    exact ⟨rfl,drained.invariant,drained.holds,drained.size,drained.opened⟩
  · have read : arrival data = .bytes data := if_neg none
    have moved : (readFromFdToBuffer (.bytes data) b).moved = data := by
      apply readFromFdToBuffer_takes
      rw [drained.asks]
      omega
    have delivers : (readFromFdToBuffer (.bytes data) b).moved ≠ [] := by
      rw [moved]
      exact none
    obtain ⟨holds,_,size⟩ := readSerial_holds drained.holds delivers
    rw [moved,List.nil_append] at holds
    rw [read]
    refine ⟨readSerial_fine false delivers,?_,holds,size.trans drained.size,?_⟩
    · have length := stuff_length IAC data
      apply holds.invariant (le_refl 0)
      · rw [size,drained.size]
        omega
      · exact fun _ => rfl
    · rw [readSerial_eof false delivers]
      exact drained.opened

theorem fromSerial_conducts {conf : SessionConf} (telnet : conf.rawFlag = false)
    (quoting : conf.noquote = false) {t : SessionLoop} {d : Dialogue} (conducts : Conducts t d)
    {exchange : Exchange} (fits : exchange.Fits) :
    Conducts (t.fromSerial conf exchange.turn) (d.fromMachine exchange.data) ∧
      (t.fromSerial conf exchange.turn).toSerial = t.toSerial ∧
      Watch.moved (t.fromSerial conf exchange.turn).toSocket = stuff IAC exchange.data ∧
      (t.fromSerial conf exchange.turn).gateway = t.gateway := by
  obtain ⟨fine,invariant,holds,size,opened⟩ := readSerial_drained conducts.outbound fits.data
  obtain ⟨moved,taken,drained⟩ := drained_write invariant holds size opened
  have resumed : t.gateway.session.sessionState = .RESUME := conducts.serves.records.settled.resumed
  have result : t.fromSerial conf exchange.turn = {t with
      serialToSocket := (writeFromBufferToFd .all
        (readSerial false (arrival exchange.data) t.serialToSocket).buff).buff
      error := 0
      toSocket := some ⟨(readSerial false (arrival exchange.data) t.serialToSocket).buff.content,
        (writeFromBufferToFd .all
          (readSerial false (arrival exchange.data) t.serialToSocket).buff).moved⟩} := by
    unfold SessionLoop.fromSerial Exchange.turn writeSocket
    rw [telnet,quoting,resumed]
    dsimp only
    rw [if_neg (not_not.mpr fine),if_neg (by decide),if_neg taken]
    rfl
  rw [result]
  exact ⟨⟨conducts.serves,conducts.inbound,drained,rfl,conducts.idle,conducts.idleCnt⟩,rfl,moved,rfl⟩

/-- What a turn brought to the machine and to the client: the gateway's messages first. -/
structure Brings (t u : SessionLoop) (d e : Dialogue) : Prop where
  conducts : Conducts u e
  machine : e.toMachine = d.toMachine ++ Watch.moved u.toSerial
  client : ∃ said data, Said said t.gateway.session u.gateway.session ∧
    Watch.moved u.toSocket = stuff IAC data ∧
    e.toClient = d.toClient ++ said ++ ClientUnit.text data

theorem turn_brings {conf : SessionConf} (telnet : conf.rawFlag = false)
    (quoting : conf.noquote = false) {t : SessionLoop} {d : Dialogue} (conducts : Conducts t d)
    (unread : t.toSerial = none) (unwritten : t.toSocket = none) {exchange : Exchange}
    (fits : exchange.Fits) :
    Brings t (t.turn conf exchange.turn).1 d (d.turn conf exchange) := by
  obtain ⟨idle,toSerial,toSocket,toMachine,said,told,toClient⟩ := checkIdle_conducts telnet conducts
  rw [unread] at toSerial
  rw [unwritten] at toSocket
  have counted (idleCnt : Int) : Conducts {t.checkIdle conf with idleCnt := idleCnt}
      {d.checkIdle conf with idleCnt := idleCnt} :=
    ⟨idle.serves,idle.inbound,idle.outbound,idle.fine,idle.idle,rfl⟩
  have serial : decide (Descriptor.serial ∈ SessionLoop.origFds) = true := by decide
  have same : exchange.turn.selected = exchange.selected := rfl
  have elapsed : exchange.turn.elapsed = exchange.elapsed := rfl
  cases selected : exchange.selected with
  | error | timeout =>
    simp only [SessionLoop.turn,Dialogue.turn,same,selected,elapsed,idle.idleCnt]
    refine ⟨counted _,?_,said,[],told,?_,?_⟩
    · rw [toSerial,toMachine]
      exact (List.append_nil _).symm
    · rw [toSocket]
      rfl
    · exact toClient.trans (List.append_nil _).symm
  | ready readFds =>
    simp only [SessionLoop.turn,Dialogue.turn,same,selected,serial,if_true]
    by_cases readable : Descriptor.sockfd ∈ readFds
    · obtain ⟨heard,socket,machine,answered⟩ := fromSocket_conducts telnet (counted 0) fits
      obtain ⟨final,unchanged,data,gateway⟩ := fromSerial_conducts telnet quoting heard fits
      simp only [readable,if_true,heard.fine,ne_eq,not_true,and_false,if_false]
      refine ⟨final,?_,said ++ ((d.checkIdle conf).service.takeAll exchange.units).2,exchange.data,
        told.trans ?_,data,?_⟩
      · rw [unchanged,machine]
        simp only [Dialogue.fromMachine,Dialogue.fromClient,toMachine]
      · rw [gateway]
        exact answered
      · simp only [Dialogue.fromMachine,Dialogue.fromClient,toClient,List.append_assoc]
    · obtain ⟨final,unchanged,data,gateway⟩ := fromSerial_conducts telnet quoting (counted 0) fits
      simp only [readable,if_false,false_and]
      refine ⟨final,?_,said,exchange.data,?_,data,?_⟩
      · rw [unchanged,toSerial]
        exact toMachine.trans (List.append_nil _).symm
      · rw [gateway]
        exact told
      · simp only [Dialogue.fromMachine,toClient]

/-- Nothing is written by raw.c. -/
theorem turn_telnet {conf : SessionConf} (telnet : conf.rawFlag = false) {t : SessionLoop}
    (good : t.error = 0) (turn : Turn) : (t.turn conf turn).1.rawToSerial = t.rawToSerial ∧
      (t.turn conf turn).1.rawToSocket = t.rawToSocket := by
  apply SessionLoop.turn_keeps
    (fun u => u.rawToSerial = t.rawToSerial ∧ u.rawToSocket = t.rawToSocket) _ _ _ _ ⟨rfl,rfl⟩ good
  · intro u same
    unfold SessionLoop.checkIdle
    split
    · exact same
    · exact same
  · exact fun _ _ same => same
  · intro u same _
    unfold SessionLoop.fromSocket
    rw [telnet,if_neg Bool.false_ne_true]
    dsimp only
    split
    · exact same
    · exact same
  · intro u same _
    unfold SessionLoop.fromSerial
    rw [telnet,if_neg Bool.false_ne_true]
    dsimp only
    split
    · exact same
    · exact same

structure Matches (w : Watch) (d : Dialogue) : Prop where
  conducts : Conducts w.loop d
  machine : w.toMachine = d.toMachine
  client : w.toClient = d.toClient.flatMap ClientUnit.encode

theorem Said.drop {said : List ClientUnit} {s t : Session} (said' : Said said s t) :
    (t.wire.drop s.wire.length).flatten = said.flatMap ClientUnit.encode := by
  obtain ⟨writes,wire,bytes⟩ := said'
  rw [wire,List.drop_left,bytes]

theorem step_matches {conf : SessionConf} (telnet : conf.rawFlag = false)
    (quoting : conf.noquote = false) {w : Watch} {d : Dialogue} (matches' : Matches w d)
    {exchange : Exchange} (fits : exchange.Fits) :
    Matches (w.step conf exchange.turn) (d.step conf exchange) := by
  have fresh : Conducts w.entering d :=
    ⟨matches'.conducts.serves,matches'.conducts.inbound,matches'.conducts.outbound,
      matches'.conducts.fine,matches'.conducts.idle,matches'.conducts.idleCnt⟩
  unfold Watch.step SessionLoop.step Dialogue.step
  rw [fresh.running]
  split
  · obtain ⟨conducts,machine,said,data,told,moved,client⟩ :=
      turn_brings telnet quoting fresh rfl rfl fits
    obtain ⟨serial,socket⟩ := turn_telnet telnet fresh.fine exchange.turn
    have unread : Watch.moved (w.entering.turn conf exchange.turn).1.rawToSerial = [] := by
      rw [serial]
      rfl
    have unwritten : Watch.moved (w.entering.turn conf exchange.turn).1.rawToSocket = [] := by
      rw [socket]
      rfl
    refine ⟨conducts,?_,?_⟩
    · dsimp only
      rw [machine,matches'.machine,unread,List.append_nil]
    · change Said said w.loop.gateway.session _ at told
      dsimp only
      rw [told.drop,moved,client,matches'.client,unwritten,List.append_nil,List.flatMap_append,
        List.flatMap_append,ClientUnit.text_encode]
  · refine ⟨fresh,?_,?_⟩
    · simpa using matches'.machine
    · simpa using matches'.client

theorem start_matches {conf : SessionConf} (telnet : conf.rawFlag = false) {s : Session}
    (faithful : Faithful s) : Matches (Watch.start conf s) (Dialogue.start s) := by
  obtain ⟨serves,wire⟩ := sessionStart_serves faithful
  have drained : Drained (bfmalloc SIZE_BUFFER) :=
    ⟨bfmalloc_invariant SIZE_BUFFER,(bfmalloc_holds SIZE_BUFFER).content_eq,bfmalloc_size (by decide),
      rfl⟩
  have session : (SessionLoop.start conf s).gateway.session = sessionStart s := by
    unfold SessionLoop.start
    rw [telnet]
    rfl
  refine ⟨⟨?_,drained,drained,rfl,rfl,rfl⟩,rfl,?_⟩
  · unfold Watch.start
    dsimp only
    rw [session]
    exact serves
  · unfold Watch.start
    dsimp only
    rw [session]
    exact wire

theorem run_matches {conf : SessionConf} (telnet : conf.rawFlag = false)
    (quoting : conf.noquote = false) {s : Session} (faithful : Faithful s)
    {exchanges : List Exchange} (fits : ∀ exchange ∈ exchanges, exchange.Fits) :
    Matches (Machine.run (Watch.step conf) (Watch.start conf s) (exchanges.map Exchange.turn))
      (Machine.run (Dialogue.step conf) (Dialogue.start s) exchanges) :=
  Machine.run_simulates Matches Exchange.turn
    (fun _ _ _ kept fits => step_matches telnet quoting kept fits) (start_matches telnet faithful) fits

/-- The loop refines the dialogue over every run: the machine and the client get the bytes that
the dialogue gives them, the line has its settings, and both end together. -/
theorem dialogue_refined {conf : SessionConf} (telnet : conf.rawFlag = false)
    (quoting : conf.noquote = false) {s : Session} (faithful : Faithful s)
    {exchanges : List Exchange} (fits : ∀ exchange ∈ exchanges, exchange.Fits) :
    let w := Machine.run (Watch.step conf) (Watch.start conf s) (exchanges.map Exchange.turn)
    let d := Machine.run (Dialogue.step conf) (Dialogue.start s) exchanges
    w.toMachine = d.toMachine ∧ w.toClient = d.toClient.flatMap ClientUnit.encode ∧
      Registers.of w.loop.gateway.session.device.term = d.service.registers ∧
      w.loop.running = d.running := by
  have reached := run_matches telnet quoting faithful fits
  exact ⟨reached.machine,reached.client,reached.conducts.serves.line,reached.conducts.running⟩

theorem faithful_processStart (device : SerialDevice) (succeeds : device.Succeeds) :
    Faithful (processStart device) := by
  refine ⟨nofun,rfl,succeeds,nofun,?_⟩
  change (stuff IAC (signature (processStart ⟨⟨0,0,0,0⟩,[]⟩))).length ≤ 253
  decide

/-- The client agrees to the option, sets 19200 baud and sends a byte; the machine sends two,
one of them an IAC. -/
def setting19200 : Exchange where
  selected := .ready [.sockfd,.serial]
  elapsed := 1
  units := [.negotiation .WILL TELOPT_COM_PORT_OPTION,
    .suboption TELOPT_COM_PORT_OPTION [CPC_SET_BAUDRATE_C2S,0,0,75,0,IAC] (by decide),
    .data 65 (by decide)]
  data := [IAC,7]
  frame := ⟨⟨fun _ => 0,[]⟩,⟨fun _ => 0,[]⟩⟩
  pdu := ⟨⟨fun _ => 0,[]⟩,⟨fun _ => 0,[]⟩,0⟩

theorem setting19200_fits : ∀ exchange ∈ [setting19200], exchange.Fits := by
  rw [List.forall_mem_singleton]
  refine ⟨?_,by decide,by decide⟩
  simp [setting19200,TelnetUnit.Coded]

theorem dialogue_refined_19200 :
    let w := Machine.run (Watch.step ⟨0,false,false⟩)
      (Watch.start ⟨0,false,false⟩ (processStart ⟨⟨0,0,0xBD,0⟩,[]⟩)) [setting19200.turn]
    w.toMachine = [65] ∧ Registers.of w.loop.gateway.session.device.term .baudrate = 19200 ∧
      w.loop.running = true := by
  obtain ⟨machine,_,line,running⟩ := @dialogue_refined ⟨0,false,false⟩ rfl rfl _
    (faithful_processStart ⟨⟨0,0,0xBD,0⟩,[]⟩ nofun) _ setting19200_fits
  refine ⟨machine.trans (by decide),?_,running.trans (by decide)⟩
  exact (congrFun line .baudrate).trans (by decide)

/-- What a client takes for data: a byte that is not an IAC, or a pair of them. -/
def clientData : ClientPhase → List UInt8 → List UInt8
  | _,[] => []
  | phase,byte::stream =>
    (if phase = .data ∧ byte ≠ IAC ∨ phase = .iac ∧ byte = IAC then [byte] else []) ++
      (phase.next byte).elim [] fun next => clientData next stream

def ClientUnit.decoded : ClientUnit → List UInt8
  | data byte _ => [byte]
  | quoted => [IAC]
  | _ => []

theorem clientData_body (body stream : List UInt8) :
    clientData .suboption (stuff IAC body ++ stream) = clientData .suboption stream := by
  induction body with
  | nil => rfl
  | cons byte body ih =>
    by_cases marker : byte = IAC
    · subst byte
      rw [stuff_marker]
      simpa [clientData,ClientPhase.next] using ih
    · rw [stuff_other marker]
      simpa [clientData,ClientPhase.next,marker] using ih

theorem clientData_unit (unit : ClientUnit) (stream : List UInt8) :
    clientData .data (unit.encode ++ stream) = unit.decoded ++ clientData .data stream := by
  cases unit with
  | data byte plain => simp [ClientUnit.encode,ClientUnit.decoded,clientData,ClientPhase.next,plain]
  | quoted => simp [ClientUnit.encode,ClientUnit.decoded,clientData,ClientPhase.next]
  | negotiation optcode option =>
    have marked : optcode.byte ≠ IAC := by cases optcode <;> decide
    have negotiates : optcode.byte ≠ SB := by cases optcode <;> decide
    simp [ClientUnit.encode,ClientUnit.decoded,clientData,ClientPhase.next,marked,negotiates]
  | suboption body =>
    have begins : SB ≠ IAC := by decide
    have ends : SE ≠ IAC := by decide
    have opened : clientData .data ((ClientUnit.suboption body).encode ++ stream) =
        clientData .suboption (stuff IAC body ++ (IAC::SE::stream)) := by
      simp [ClientUnit.encode,clientData,ClientPhase.next,begins]
    rw [opened,clientData_body]
    simp [ClientUnit.decoded,clientData,ClientPhase.next,ends]

theorem clientData_units (units : List ClientUnit) :
    clientData .data (units.flatMap ClientUnit.encode) = units.flatMap ClientUnit.decoded := by
  induction units with
  | nil => rfl
  | cons unit units ih => rw [List.flatMap_cons,clientData_unit,ih,List.flatMap_cons]

theorem ClientUnit.text_decoded (bytes : List UInt8) : (text bytes).flatMap decoded = bytes := by
  induction bytes with
  | nil => rfl
  | cons byte bytes ih =>
    simp only [text,List.map_cons,List.flatMap_cons] at ih ⊢
    rw [ih]
    by_cases marker : byte = IAC
    · subst byte
      rfl
    · rw [dif_neg marker]
      rfl

/-- No answer of the service is data to the client. -/
theorem Service.control_decoded (suboptcode : UInt8) (command : List UInt8) (v : Service) :
    (v.control suboptcode command).2.flatMap ClientUnit.decoded = [] := by
  unfold Service.control
  split
  · split
    · dsimp only
      split <;> rfl
    · rfl
  · split <;> rfl

theorem Service.take_decoded (v : Service) (unit : TelnetUnit) :
    (v.take unit).2.flatMap ClientUnit.decoded = [] := by
  cases unit with
  | data byte plain | quoted | command optcode other => rfl
  | negotiation optcode option =>
    rw [List.flatMap_eq_nil_iff]
    intro answer member
    obtain ⟨command,_,rfl⟩ := List.mem_map.mp member
    rfl
  | suboption option body framed =>
    change (v.suboption option body).2.flatMap ClientUnit.decoded = []
    unfold Service.suboption
    split
    · cases request? body with
      | none => rfl
      | some request => exact Service.control_decoded request.1 request.2 v
    · rfl

theorem Service.takeAll_decoded (v : Service) (units : List TelnetUnit) :
    (v.takeAll units).2.flatMap ClientUnit.decoded = [] := by
  induction units generalizing v with
  | nil => rfl
  | cons unit units ih =>
    simp only [Service.takeAll,List.flatMap_append]
    rw [v.take_decoded unit,ih]
    rfl

namespace Exchange

/-- What a turn reads from the client, and from the machine. -/
def heard (exchange : Exchange) : List TelnetUnit :=
  if .sockfd ∈ exchange.selected.readFds then exchange.units else []

def sent (exchange : Exchange) : List UInt8 :=
  match exchange.selected with
  | .ready _ => exchange.data
  | .error | .timeout => []

end Exchange

theorem Dialogue.turn_idle (conf : SessionConf) (d : Dialogue) (exchange : Exchange) :
    (d.turn conf exchange).idle = (d.checkIdle conf).idle := by
  unfold Dialogue.turn
  cases exchange.selected with
  | error | timeout => rfl
  | ready readFds =>
    dsimp only
    split <;> rfl

theorem Dialogue.running_awake {conf : SessionConf} {d : Dialogue} {exchange : Exchange}
    (running : (d.turn conf exchange).running = true) : d.checkIdle conf = d := by
  have awake : (d.checkIdle conf).idle = false := by
    rw [← d.turn_idle conf exchange]
    simp only [Dialogue.running,Bool.and_eq_true,Bool.not_eq_true'] at running
    exact running.2
  unfold Dialogue.checkIdle at awake ⊢
  split
  · rename_i due
    rw [if_pos due] at awake
    contradiction
  · rfl

/-- A turn after which the dialogue still goes on has passed the bytes of both sides. -/
theorem Dialogue.step_passes {conf : SessionConf} {d : Dialogue} {exchange : Exchange}
    (running : (d.step conf exchange).running = true) :
    d.running = true ∧
      (d.step conf exchange).toMachine = d.toMachine ++ exchange.heard.flatMap TelnetUnit.decoded ∧
      (d.step conf exchange).toClient.flatMap ClientUnit.decoded =
        d.toClient.flatMap ClientUnit.decoded ++ exchange.sent := by
  unfold Dialogue.step at running ⊢
  by_cases before : d.running = true
  · rw [if_pos before] at running ⊢
    refine ⟨before,?_⟩
    unfold Dialogue.turn Exchange.heard Exchange.sent
    rw [Dialogue.running_awake running]
    cases exchange.selected with
    | error | timeout => simp [Selected.readFds]
    | ready readFds =>
      by_cases readable : Descriptor.sockfd ∈ readFds
      · simp [Selected.readFds,readable,Dialogue.fromMachine,Dialogue.fromClient,
          ClientUnit.text_decoded,Service.takeAll_decoded]
      · simp [Selected.readFds,readable,Dialogue.fromMachine,ClientUnit.text_decoded]
  · rw [if_neg before] at running
    exact absurd running before

theorem Dialogue.run_passes {conf : SessionConf} {s : Session} {exchanges : List Exchange}
    (running : (Machine.run (Dialogue.step conf) (Dialogue.start s) exchanges).running = true) :
    let d := Machine.run (Dialogue.step conf) (Dialogue.start s) exchanges
    d.toMachine = (exchanges.flatMap Exchange.heard).flatMap TelnetUnit.decoded ∧
      d.toClient.flatMap ClientUnit.decoded = exchanges.flatMap Exchange.sent := by
  induction exchanges using List.reverseRecOn with
  | nil => exact ⟨rfl,rfl⟩
  | append_singleton exchanges exchange ih =>
    rw [Machine.run_concat] at running ⊢
    obtain ⟨before,machine,client⟩ := Dialogue.step_passes running
    obtain ⟨machine',client'⟩ := ih before
    dsimp only at machine' client' ⊢
    rw [machine,client,machine',client']
    simp [List.flatMap_append]

/-- While a session goes on it is transparent: the machine has received what the client's units
say, and what the client takes for data is what the machine has sent, whatever was negotiated
and set in between. -/
theorem session_transparent {conf : SessionConf} (telnet : conf.rawFlag = false)
    (quoting : conf.noquote = false) {s : Session} (faithful : Faithful s)
    {exchanges : List Exchange} (fits : ∀ exchange ∈ exchanges, exchange.Fits)
    (running : (Machine.run (Watch.step conf) (Watch.start conf s)
      (exchanges.map Exchange.turn)).loop.running = true) :
    let w := Machine.run (Watch.step conf) (Watch.start conf s) (exchanges.map Exchange.turn)
    w.toMachine = (exchanges.flatMap Exchange.heard).flatMap TelnetUnit.decoded ∧
      clientData .data w.toClient = exchanges.flatMap Exchange.sent := by
  have reached := run_matches telnet quoting faithful fits
  rw [reached.conducts.running] at running
  obtain ⟨machine,client⟩ := Dialogue.run_passes running
  dsimp only
  rw [reached.machine,machine,reached.client,clientData_units,client]
  exact ⟨rfl,rfl⟩

theorem session_transparent_19200 :
    let w := Machine.run (Watch.step ⟨0,false,false⟩)
      (Watch.start ⟨0,false,false⟩ (processStart ⟨⟨0,0,0xBD,0⟩,[]⟩)) [setting19200.turn]
    w.toMachine = [65] ∧ clientData .data w.toClient = [IAC,7] := by
  have faithful := faithful_processStart ⟨⟨0,0,0xBD,0⟩,[]⟩ nofun
  exact @session_transparent ⟨0,false,false⟩ rfl rfl _ faithful [setting19200] setting19200_fits
    ((@run_matches ⟨0,false,false⟩ rfl rfl _ faithful _ setting19200_fits).conducts.running.trans
      (by decide))

end SerialIp

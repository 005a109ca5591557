import SerialIp.ClientUnits
import SerialIp.LineRegisters
import SerialIp.NegotiationRuns

/-! The gateway as its client sees it: a ledger of the negotiation, the registers of the line
and whether it still asks for a signature. What the client sends is a list of units, and so
is what it gets. The session refines this as long as no call fails or takes less than all. -/
namespace SerialIp
open Library Buffer Session

namespace Setting

/-- The setting that a code of the protocol is about, in either direction. -/
def ofCode? (suboptcode : UInt8) : Option Setting :=
  [baudrate,datasize,parity,stopsize].find? fun setting =>
    suboptcode = setting.request ∨ suboptcode = setting.reply

end Setting

structure Service where
  ledger : Ledger
  registers : Registers
  asking : Bool
  loggedIn : Bool
  signature : List UInt8

/-- The request in the body of a suboption, which ends in the IAC of its IAC SE: its code and
the command, decoded. -/
def request? : List UInt8 → Option (UInt8 × List UInt8)
  | [] => none
  | suboptcode::rest =>
    if rest.getLast? = some IAC then some (suboptcode,carried rest.dropLast) else none

theorem request?_ended (suboptcode : UInt8) (text : List UInt8) :
    request? (suboptcode::(text ++ [IAC])) = some (suboptcode,carried text) := by
  simp [request?]

theorem request?_other (suboptcode : UInt8) {rest : List UInt8} (other : rest.getLast? ≠ some IAC) :
    request? (suboptcode::rest) = none := if_neg other

namespace Service

def cpc (suboptcode : UInt8) (content : List UInt8) : ClientUnit :=
  .suboption (TELOPT_COM_PORT_OPTION::suboptcode::content)

def negotiate (optcode : OptCode) (option : UInt8) (v : Service) : Service × List ClientUnit :=
  let ledger := v.ledger.respond optcode option
  ({v with
      ledger := ledger
      loggedIn := v.loggedIn && !decide (option = TELOPT_LOGOUT ∧ (optcode = .WILL ∨ optcode = .DO))},
    (ledger.log.entries.drop v.ledger.log.entries.length).map fun command =>
      .negotiation command.1 command.2)

/-- An empty signature asks for that of the gateway, which asks back once. -/
def control (suboptcode : UInt8) (command : List UInt8) (v : Service) : Service × List ClientUnit :=
  if suboptcode = CPC_SIGNATURE_C2S ∨ suboptcode = CPC_SIGNATURE_S2C then
    if command.headD 0 = 0 then
      ({v with asking := false},
        cpc CPC_SIGNATURE_S2C v.signature::if v.asking then [cpc CPC_SIGNATURE_C2S []] else [])
    else (v,[])
  else match Setting.ofCode? suboptcode with
  | some setting =>
    let registers := v.registers.request setting (commandValue command)
    ({v with registers := registers},[cpc setting.reply (setting.answer registers)])
  | none => (v,[])

/-- Without the consent of the client its suboptions mean nothing. -/
def suboption (option : UInt8) (body : List UInt8) (v : Service) : Service × List ClientUnit :=
  if option = TELOPT_COM_PORT_OPTION ∧ v.ledger.enabled .CLIENT TELOPT_COM_PORT_OPTION then
    (request? body).elim (v,[]) fun (suboptcode,command) => v.control suboptcode command
  else (v,[])

def take (v : Service) : TelnetUnit → Service × List ClientUnit
  | .negotiation optcode option => v.negotiate optcode option
  | .suboption option body _ => v.suboption option body
  | _ => (v,[])

def takeAll : Service → List TelnetUnit → Service × List ClientUnit
  | v,[] => (v,[])
  | v,unit::units =>
    let next := v.take unit
    let rest := next.1.takeAll units
    (rest.1,next.2 ++ rest.2)

end Service

/-- From `s` to `t` the client was told the commands `new`, and what decides about suboptions
is as it was. -/
structure Announces (s t : Session) (new : List (OptCode × UInt8)) : Prop where
  settled : Settled t
  size : t.sabre.size = s.sabre.size
  device : t.device = s.device
  asking : t.askClientSignature = s.askClientSignature
  allocs : t.allocs = s.allocs
  signature : signature t = signature s
  wire : t.wire = s.wire ++ new.map fun command => optstr command.1 command.2

theorem Announces.refl {s : Session} (settled : Settled s) : Announces s s [] :=
  ⟨settled,rfl,rfl,rfl,rfl,rfl,(List.append_nil _).symm⟩

theorem Announces.trans {a b c : Session} {first second : List (OptCode × UInt8)}
    (early : Announces a b first) (late : Announces b c second) :
    Announces a c (first ++ second) := by
  refine ⟨late.settled,late.size.trans early.size,late.device.trans early.device,
    late.asking.trans early.asking,late.allocs.trans early.allocs,
    late.signature.trans early.signature,?_⟩
  rw [late.wire,early.wire,List.map_append,List.append_assoc]

/-- A transmission leaves the buffer as large as it was. -/
theorem transmit_size (bytes : List UInt8) (s : Session) :
    (s.appendToSabre bytes).writeSabre.2.sabre.size = s.sabre.size := by
  unfold writeSabre appendToSabre
  dsimp only
  split
  · exact bfstrncat_size _ _ _
  · exact (writeFromBufferToFd_size _ _).trans (bfstrncat_size _ _ _)

/-- A transmission that fits into the empty buffer goes out whole. -/
theorem transmit_whole {s : Session} (settled : Settled s) (bytes : List UInt8) (some : bytes ≠ [])
    (fits : bytes.length ≤ s.sabre.size) :
    (s.appendToSabre bytes).writeSabre.1 = bytes.length ∧
      (s.appendToSabre bytes).writeSabre.2.wire = s.wire ++ [bytes] ∧
      Settled (s.appendToSabre bytes).writeSabre.2 := by
  have whole : bytes.take s.sabre.size.toNat = bytes := List.take_of_length_le (by omega)
  have result := transmit_settled settled some
  rw [whole] at result
  exact result

theorem sendTelnetOption_announces {s : Session} (settled : Settled s) (optcode : OptCode)
    (option : UInt8) : ∃ new, Announces s (sendTelnetOption optcode option s).2 new := by
  unfold sendTelnetOption
  split
  · exact ⟨[],Announces.refl settled⟩
  · obtain ⟨ret,wire,sent⟩ := transmit_whole settled (optstr optcode option)
      (by simp [optstr]) (by simpa [optstr] using settled.room)
    have resumed : (s.appendToSabre (optstr optcode option)).sessionState = .RESUME := settled.resumed
    have transmits := (appendToSabre_transmits (optstr optcode option) s).trans (writeSabre_transmits _)
    have enough : (s.appendToSabre (optstr optcode option)).writeSabre.1 ≥ 3 := by
      rw [ret]
      simp [optstr]
    dsimp only
    rw [if_pos resumed,if_pos enough]
    have marked : markTelnetOptionAsSent optcode option
        (s.appendToSabre (optstr optcode option)).writeSabre.2 =
        {(s.appendToSabre (optstr optcode option)).writeSabre.2 with
          tnoptions := (markTelnetOptionAsSent optcode option
            (s.appendToSabre (optstr optcode option)).writeSabre.2).tnoptions} := by
      cases optcode <;> rfl
    rw [marked]
    refine ⟨[(optcode,option)],⟨sent.complete,sent.resumed,sent.room,sent.empty⟩,
      transmit_size _ s,transmits.device,?_,?_,?_,wire⟩
    · rw [transmits]
    · rw [transmits]
    · rw [transmits]
      rfl

theorem respondTelnetOption_announces {s : Session} (settled : Settled s) (optcode : OptCode)
    (option : UInt8) : ∃ new, Announces s (respondTelnetOption optcode option s).2 new := by
  have responds : Responds option fun t => ∃ new, Announces s t new := by
    refine ⟨?_,?_,?_,?_⟩
    · intro code t announces
      obtain ⟨first,early⟩ := announces
      obtain ⟨second,late⟩ := sendTelnetOption_announces early.settled code option
      exact ⟨_,early.trans late⟩
    · intro side value t announces
      obtain ⟨new,settled,size,device,asking,allocs,signed,wire⟩ := announces
      exact ⟨new,settled.setOption option _,size,device,asking,allocs,signed,wire⟩
    · intro side mode t announces
      obtain ⟨new,settled,size,device,asking,allocs,signed,wire⟩ := announces
      exact ⟨new,⟨settled.complete,settled.resumed,settled.room,settled.empty⟩,size,device,asking,
        allocs,signed,wire⟩
    · intro t announces
      obtain ⟨new,settled,size,device,asking,allocs,signed,wire⟩ := announces
      exact ⟨new,⟨settled.complete,settled.resumed,settled.room,settled.empty⟩,size,device,asking,
        allocs,signed,wire⟩
  refine responds.respond optcode ⟨[],?_,rfl,rfl,rfl,rfl,rfl,(List.append_nil _).symm⟩
  exact ⟨settled.complete,settled.resumed,settled.room,settled.empty⟩

theorem sendTelnetOption_loggedIn (optcode : OptCode) (option : UInt8) (s : Session) :
    (sendTelnetOption optcode option s).2.clientLoggedIn = s.clientLoggedIn := by
  apply sendTelnetOption_keeps (fun t => t.clientLoggedIn = s.clientLoggedIn) _ _ _ rfl
  · intro bytes t same
    exact same
  · intro t same
    rw [writeSabre_transmits t]
    exact same
  · intro t same
    cases optcode <;> exact same

theorem answerTelnetOption_loggedIn {setMode : Side → TnMode → Session → Session}
    (neutral : ∀ side mode s, (setMode side mode s).clientLoggedIn = s.clientLoggedIn)
    (optcode : OptCode) (option : UInt8) (s : Session) :
    (answerTelnetOption setMode optcode option s).2.clientLoggedIn = s.clientLoggedIn := by
  rw [answerTelnetOption_eq]
  split
  · rfl
  · rw [neutral]
    exact sendTelnetOption_loggedIn _ option s

/-- Only a request for the logout option ends the session. -/
theorem respondTelnetOption_loggedIn (optcode : OptCode) (option : UInt8) (s : Session) :
    (respondTelnetOption optcode option s).2.clientLoggedIn =
      (s.clientLoggedIn && !decide (option = TELOPT_LOGOUT ∧ (optcode = .WILL ∨ optcode = .DO))) := by
  have binary (t : Session) : (answerBinary optcode option t).2.clientLoggedIn = t.clientLoggedIn :=
    @answerTelnetOption_loggedIn setTnmode (fun _ _ _ => rfl) optcode option t
  have plain (t : Session) : (answerKnown optcode option t).2.clientLoggedIn = t.clientLoggedIn :=
    answerTelnetOption_loggedIn (fun _ _ _ => rfl) optcode option t
  have known (t : Session) : (respondKnownTelnetOption optcode option t).2.clientLoggedIn =
      t.clientLoggedIn := by
    unfold respondKnownTelnetOption
    split
    · exact binary t
    · exact plain t
  unfold respondTelnetOption
  dsimp only
  by_cases leaving : option = TELOPT_LOGOUT
  · rw [if_neg (by rw [leaving]; decide),if_pos leaving]
    dsimp only
    split
    · rename_i asked
      simp [leaving,asked]
    · rename_i stays
      rw [known]
      simp [stays,notice]
  · simp only [leaving,false_and,decide_false,Bool.not_false,Bool.and_true,if_false]
    split
    · exact known _
    · split
      · unfold respondTelnetBinaryOption
        split
        · exact plain _
        · exact binary _
      · exact sendTelnetOption_loggedIn _ option _

/-- A suboption goes out whole and leaves nothing behind. -/
theorem sendTelnetCpcSuboption_whole {s : Session} (settled : Settled s)
    (room : 259 ≤ s.sabre.size) (suboptcode : UInt8) (content : List UInt8) :
    let sent := sendTelnetCpcSuboption suboptcode content s
    sent.1 = 0 ∧ Transmits s sent.2 ∧ Settled sent.2 ∧ sent.2.sabre.size = s.sabre.size ∧
      sent.2.wire = s.wire ++ [suboption suboptcode content] := by
  have built : Settled {s with optstr := (buildSuboption s.optstr suboptcode content).1} :=
    ⟨settled.complete,settled.resumed,settled.room,settled.empty⟩
  have limit := suboption_length suboptcode content
  obtain ⟨ret,wire,left⟩ := transmit_whole built (suboption suboptcode content)
    (by simp [suboption]) (by dsimp only; omega)
  have size := transmit_size (suboption suboptcode content)
    {s with optstr := (buildSuboption s.optstr suboptcode content).1}
  have length : (buildSuboption s.optstr suboptcode content).2 =
      (suboption suboptcode content).length := by
    rw [buildSuboption_eq]
  have resumed : ({s with optstr := (buildSuboption s.optstr suboptcode content).1}.appendToSabre
      (suboption suboptcode content)).sessionState = .RESUME := settled.resumed
  have result : sendTelnetCpcSuboption suboptcode content s = (0,
      ({s with optstr := (buildSuboption s.optstr suboptcode content).1}.appendToSabre
        (suboption suboptcode content)).writeSabre.2) := by
    unfold sendTelnetCpcSuboption
    dsimp only
    rw [buildSuboption_read,if_pos resumed,ret,length,if_pos (le_refl _)]
  have transmits := sendTelnetCpcSuboption_transmits suboptcode content s
  rw [result] at transmits ⊢
  exact ⟨rfl,transmits,left,size,wire⟩

/-- The refinement. A signature that is sent whole is not cut between the halves of an IAC. -/
structure Serves (s : Session) (v : Service) : Prop where
  records : Records s v.ledger
  line : Registers.of s.device.term = v.registers
  succeeds : s.device.Succeeds
  asking : s.askClientSignature = v.asking
  loggedIn : s.clientLoggedIn = v.loggedIn
  plenty : ∀ alloc ∈ s.allocs, alloc = true
  signed : signature s = v.signature
  whole : (stuff IAC v.signature).length ≤ 253
  capacity : s.sabre.size = SIZE_BUFFER

/-- Between the two sessions the client was sent the units. -/
def Said (units : List ClientUnit) (s t : Session) : Prop :=
  ∃ writes, t.wire = s.wire ++ writes ∧ writes.flatten = units.flatMap ClientUnit.encode

theorem Said.refl (s : Session) : Said [] s s := ⟨[],(List.append_nil _).symm,rfl⟩

theorem Said.trans {a b c : Session} {first second : List ClientUnit} (early : Said first a b)
    (late : Said second b c) : Said (first ++ second) a c := by
  obtain ⟨some,wire,bytes⟩ := early
  obtain ⟨more,wire',bytes'⟩ := late
  refine ⟨some ++ more,?_,?_⟩
  · rw [wire',wire,List.append_assoc]
  · rw [List.flatten_append,bytes,bytes',List.flatMap_append]

/-- A suboption that is not cut is the unit of its content. -/
theorem suboption_cpc {suboptcode : UInt8} {content : List UInt8} (plain : suboptcode ≠ IAC)
    (whole : (stuff IAC content).length ≤ 253) :
    suboption suboptcode content = (Service.cpc suboptcode content).encode := by
  change _ = [IAC,SB] ++ stuff IAC (TELOPT_COM_PORT_OPTION::suboptcode::content) ++ [IAC,SE]
  unfold suboption
  rw [List.take_of_length_le whole,stuff_other (by decide),stuff_other plain]
  rfl

theorem sendTelnetCpcSuboption_serves {s : Session} {v : Service} (serves : Serves s v)
    {suboptcode : UInt8} {content : List UInt8} (plain : suboptcode ≠ IAC)
    (whole : (stuff IAC content).length ≤ 253) :
    let sent := sendTelnetCpcSuboption suboptcode content s
    sent.1 = 0 ∧ Serves sent.2 v ∧ Said [Service.cpc suboptcode content] s sent.2 := by
  have room : 259 ≤ s.sabre.size := by
    rw [serves.capacity]
    decide
  obtain ⟨ret,transmits,_,size,wire⟩ :=
    sendTelnetCpcSuboption_whole serves.records.settled room suboptcode content
  have records := sendTelnetCpcSuboption_records serves.records suboptcode content
  refine ⟨ret,⟨records,?_,?_,?_,?_,?_,?_,serves.whole,size.trans serves.capacity⟩,
    [suboption suboptcode content],wire,?_⟩
  · rw [transmits.device]
    exact serves.line
  · rw [transmits.device]
    exact serves.succeeds
  · rw [transmits]
    exact serves.asking
  · rw [transmits]
    exact serves.loggedIn
  · rw [transmits]
    exact serves.plenty
  · rw [transmits]
    exact serves.signed
  · simp [suboption_cpc plain whole]

theorem optstr_transmitted (new : List (OptCode × UInt8)) :
    (new.map fun command => optstr command.1 command.2).filterMap asNegotiation = new := by
  induction new with
  | nil => rfl
  | cons command new ih =>
    rw [List.map_cons,List.filterMap_cons_some (asNegotiation_optstr command.1 command.2),ih]

/-- Commands that the ledger has written down are what the client was told. -/
theorem Announces.serves {s t : Session} {v : Service} {new : List (OptCode × UInt8)}
    {ledger : Ledger} (announces : Announces s t new) (serves : Serves s v)
    (records : Records t ledger) :
    Serves t {v with ledger := ledger, loggedIn := t.clientLoggedIn} ∧
      Said ((ledger.log.entries.drop v.ledger.log.entries.length).map fun command =>
        .negotiation command.1 command.2) s t := by
  have entries : ledger.log.entries = v.ledger.log.entries ++ new := by
    rw [← records.announced,← serves.records.announced]
    unfold transmitted
    rw [announces.wire,List.filterMap_append,optstr_transmitted]
  refine ⟨⟨records,?_,?_,announces.asking.trans serves.asking,rfl,?_,
    announces.signature.trans serves.signed,serves.whole,announces.size.trans serves.capacity⟩,_,
    announces.wire,?_⟩
  · rw [announces.device]
    exact serves.line
  · rw [announces.device]
    exact serves.succeeds
  · rw [announces.allocs]
    exact serves.plenty
  · rw [entries,List.drop_left,List.flatMap_map]
    rfl

theorem respondTelnetOption_serves {s : Session} {v : Service} (serves : Serves s v)
    (optcode : OptCode) (option : UInt8) :
    Serves (respondTelnetOption optcode option s).2 (v.negotiate optcode option).1 ∧
      Said (v.negotiate optcode option).2 s (respondTelnetOption optcode option s).2 := by
  obtain ⟨new,announces⟩ := respondTelnetOption_announces serves.records.settled optcode option
  have result := announces.serves serves (respondTelnetOption_records serves.records optcode option)
  rw [respondTelnetOption_loggedIn,serves.loggedIn] at result
  exact result

theorem Serves.congr {s t : Session} {v : Service} (serves : Serves s v)
    (same : t = {s with command := t.command, allocs := t.allocs, notices := t.notices})
    (plenty : ∀ alloc ∈ t.allocs, alloc = true) : Serves t v := by
  obtain ⟨records,line,succeeds,asking,loggedIn,_,signed,whole,capacity⟩ := serves
  rw [same]
  exact ⟨records.congr rfl rfl rfl rfl rfl,line,succeeds,asking,loggedIn,plenty,signed,whole,capacity⟩

theorem Serves.asked {s : Session} {v : Service} (serves : Serves s v) (asking : Bool) :
    Serves {s with askClientSignature := asking} {v with asking := asking} :=
  ⟨serves.records.congr rfl rfl rfl rfl rfl,serves.line,serves.succeeds,rfl,serves.loggedIn,
    serves.plenty,serves.signed,serves.whole,serves.capacity⟩

theorem headD_plenty {allocs : List Bool} (plenty : ∀ alloc ∈ allocs, alloc = true) :
    allocs.headD true = true := by
  cases allocs with
  | nil => rfl
  | cons alloc rest => exact plenty alloc List.mem_cons_self

theorem respondTelnetCpcSignatureSubopt_serves {s : Session} {v : Service} (serves : Serves s v)
    {command : List UInt8} (terminated : Terminated s.command command) {suboptcode : UInt8}
    (code : suboptcode = CPC_SIGNATURE_C2S ∨ suboptcode = CPC_SIGNATURE_S2C) :
    Serves (respondTelnetCpcSignatureSubopt s).2 (v.control suboptcode command).1 ∧
      Said (v.control suboptcode command).2 s (respondTelnetCpcSignatureSubopt s).2 := by
  have first : s.command.cell 0 = command.headD 0 := by
    cases command with
    | nil => exact terminated.stop
    | cons byte rest => exact @Terminated.cell s.command [] rest byte terminated
  unfold respondTelnetCpcSignatureSubopt Service.control
  rw [if_pos code,first]
  split
  · have free : Serves {s with allocs := s.allocs.tail} v :=
      serves.congr rfl fun alloc member => serves.plenty alloc (List.mem_of_mem_tail member)
    have content : (if s.allocs.headD true then SerialIp.signature s else plainSignature) =
        v.signature := by
      rw [if_pos (headD_plenty serves.plenty)]
      exact serves.signed
    have first := @sendTelnetCpcSuboption_serves _ _ free CPC_SIGNATURE_S2C v.signature (by decide)
      serves.whole
    obtain ⟨ret,sent,said⟩ := first
    have back := @sendTelnetCpcSuboption_serves _ _ sent CPC_SIGNATURE_C2S [] (by decide) (by decide)
    obtain ⟨_,again,asked⟩ := back
    dsimp only
    rw [content,ret,sent.asking]
    cases asking : v.asking with
    | true =>
      rw [if_pos ⟨rfl,rfl⟩]
      exact ⟨again.asked false,said.trans asked⟩
    | false =>
      rw [if_neg (by simp)]
      have same : {v with asking := false} = v := by rw [← asking]
      rw [same]
      exact ⟨sent,said⟩
  · exact ⟨serves.congr rfl serves.plenty,[],(List.append_nil _).symm,rfl⟩

theorem Setting.answer_short (setting : Setting) (r : Registers) :
    (stuff IAC (setting.answer r)).length ≤ 253 := by
  have doubled := stuff_length IAC (setting.answer r)
  have fewer := List.count_le_length (a := IAC) (l := setting.answer r)
  have width : setting.width ≤ 4 := by cases setting <;> decide
  have length : (setting.answer r).length = setting.width := bigEndian_length _ _
  omega

theorem ofCode_some {suboptcode : UInt8} {setting : Setting}
    (found : Setting.ofCode? suboptcode = some setting) :
    suboptcode = setting.request ∨ suboptcode = setting.reply := by
  simpa using List.find?_some found

theorem ofCode_none {suboptcode : UInt8} (missing : Setting.ofCode? suboptcode = none)
    (setting : Setting) : ¬(suboptcode = setting.request ∨ suboptcode = setting.reply) := by
  have all := List.find?_eq_none.mp missing setting (by cases setting <;> decide)
  simpa using all

/-- A command of the client: what the dispatch does is what the service says. -/
theorem dispatchSuboption_serves {s : Session} {v : Service} (serves : Serves s v)
    {command : List UInt8} (terminated : Terminated s.command command) (suboptcode : UInt8) :
    let t := (dispatchSuboption suboptcode (commandValue command) s).2
    Serves t (v.control suboptcode command).1 ∧ Said (v.control suboptcode command).2 s t := by
  dsimp only
  by_cases code : suboptcode = CPC_SIGNATURE_C2S ∨ suboptcode = CPC_SIGNATURE_S2C
  · unfold dispatchSuboption
    rw [if_pos code]
    exact respondTelnetCpcSignatureSubopt_serves serves terminated code
  · unfold Service.control
    rw [if_neg code]
    cases found : Setting.ofCode? suboptcode with
    | some setting =>
      rw [Setting.dispatchSuboption_setting setting (ofCode_some found)]
      obtain ⟨device,succeeds,line,sent⟩ :=
        setting.respond_registers (commandValue command) serves.succeeds
      rw [serves.line] at line
      have moved : Serves {s with device := device}
          {v with registers := v.registers.request setting (commandValue command)} :=
        ⟨serves.records.congr rfl rfl rfl rfl rfl,line,succeeds,serves.asking,serves.loggedIn,
          serves.plenty,serves.signed,serves.whole,serves.capacity⟩
      have reply : setting.reply ≠ IAC := by cases setting <;> decide
      rw [sent,line]
      exact (sendTelnetCpcSuboption_serves moved reply (setting.answer_short _)).2
    | none =>
      have baudrate : ¬(suboptcode = CPC_SET_BAUDRATE_C2S ∨ suboptcode = CPC_SET_BAUDRATE_S2C) :=
        ofCode_none found .baudrate
      have datasize : ¬(suboptcode = CPC_SET_DATASIZE_C2S ∨ suboptcode = CPC_SET_DATASIZE_S2C) :=
        ofCode_none found .datasize
      have parity : ¬(suboptcode = CPC_SET_PARITY_C2S ∨ suboptcode = CPC_SET_PARITY_S2C) :=
        ofCode_none found .parity
      have stopsize : ¬(suboptcode = CPC_SET_STOPSIZE_C2S ∨ suboptcode = CPC_SET_STOPSIZE_S2C) :=
        ofCode_none found .stopsize
      have same : dispatchSuboption suboptcode (commandValue command) s = (0,s) := by
        unfold dispatchSuboption
        rw [if_neg code,if_neg baudrate,if_neg datasize,if_neg parity,if_neg stopsize]
      rw [same]
      exact ⟨serves,Said.refl s⟩

/-- A suboption of the protocol has a code, and more behind it where that is an IAC. -/
def TelnetUnit.Coded : TelnetUnit → Prop
  | suboption option body _ => option = TELOPT_COM_PORT_OPTION → body ≠ [] ∧ body ≠ [IAC]
  | _ => True

theorem processTelnetCpcSuboption_serves {mem : Block UInt8} {start size : Int}
    {body after : List UInt8} {s : Session} {v : Service} (serves : Serves s v)
    (content : mem.read start size.toNat = body ++ SE::after) (framed : SE ∉ body)
    (coded : body ≠ [] ∧ body ≠ [IAC]) :
    let t := (processTelnetCpcSuboption mem start size s).2
    let answer := (request? body).elim (v,[]) fun (suboptcode,command) => v.control suboptcode command
    Serves t answer.1 ∧ Said answer.2 s t := by
  obtain ⟨suboptcode,rest,rfl⟩ := List.exists_cons_of_ne_nil coded.1
  have absent : SE ∉ rest := fun member => framed (List.mem_cons_of_mem _ member)
  dsimp only
  by_cases ended : rest.getLast? = some IAC
  · obtain ⟨text,rfl⟩ := List.getLast?_eq_some_iff.mp ended
    obtain ⟨command,terminated,same⟩ := processTelnetCpcSuboption_carries s content
      (fun member => absent (List.mem_append_left _ member))
    rw [same,request?_ended]
    have told := serves.congr (t := {s with command := command}.notice
      (.suboption suboptcode (commandValue (carried text)) (carried text))) rfl serves.plenty
    exact dispatchSuboption_serves told terminated suboptcode
  · have other : (suboptcode::rest).getLast? ≠ some IAC := by
      cases rest with
      | nil => simpa using coded.2
      | cons byte rest => exact ended
    rw [request?_other suboptcode ended,processTelnetCpcSuboption_ignored s content absent other]
    exact ⟨serves,Said.refl s⟩

theorem answerSuboption_serves {st : Scan} {done body left : List UInt8} {option : UInt8}
    {v : Service} (reading : Reading st done (IAC::SB::option::(body ++ SE::left)))
    (framed : SE ∉ body) (coded : (TelnetUnit.suboption option body framed).Coded)
    (serves : Serves st.session v) :
    Serves (answerSuboption st option) (v.suboption option body).1 ∧
      Said (v.suboption option body).2 st.session (answerSuboption st option) := by
  have enabled : telnetClientOptionIsEnabled TELOPT_COM_PORT_OPTION st.session =
      v.ledger.enabled .CLIENT TELOPT_COM_PORT_OPTION :=
    serves.records.flags .CLIENT TELOPT_COM_PORT_OPTION
  have whole : st.buff.mem.read st.iac (IAC::SB::option::(body ++ SE::left)).length =
      [IAC,SB,option] ++ (body ++ SE::left) := reading.suffix
  have content : st.buff.mem.read (st.iac+3) (st.size-3).toNat = body ++ SE::left := by
    have size : (st.size-3).toNat = (body ++ SE::left).length := by
      rw [reading.size]
      simp only [List.length_cons]
      omega
    rw [size]
    exact (Block.read_split st.buff.mem whole).2
  unfold answerSuboption Service.suboption
  by_cases consent : option = TELOPT_COM_PORT_OPTION ∧
      v.ledger.enabled .CLIENT TELOPT_COM_PORT_OPTION
  · obtain ⟨rfl,on⟩ := consent
    rw [if_pos ⟨rfl,enabled.trans on⟩,if_pos ⟨rfl,on⟩]
    exact processTelnetCpcSuboption_serves serves content framed (coded rfl)
  · have silent : ¬(option = TELOPT_COM_PORT_OPTION ∧
        telnetClientOptionIsEnabled option st.session = true) := by
      intro both
      obtain ⟨rfl,on⟩ := both
      exact consent ⟨rfl,enabled.symm.trans on⟩
    rw [if_neg silent,if_neg consent]
    exact ⟨serves,Said.refl _⟩

/-- One unit at the place of the scan, as the service takes it. -/
theorem scanNext_serves {st : Scan} {done left : List UInt8} {v : Service} (unit : TelnetUnit)
    (coded : unit.Coded) (reading : Reading st done (unit.encode ++ left))
    (serves : Serves st.session v) :
    ∃ next, scanNext st = scanNext next ∧ Reading next (done ++ unit.decoded) left ∧
      Serves next.session (v.take unit).1 ∧ Said (v.take unit).2 st.session next.session := by
  cases unit with
  | suboption option body framed =>
    have whole : Reading st done (IAC::SB::option::(body ++ SE::left)) := by
      simpa [TelnetUnit.encode] using reading
    obtain ⟨read,answered⟩ := scanCommand_suboption whole framed
    refine ⟨_,scanNext_command whole,by simpa [TelnetUnit.decoded] using read,?_⟩
    rw [answered]
    exact answerSuboption_serves whole framed coded serves
  | negotiation optcode option =>
    obtain ⟨next,same,read,effect⟩ := scanNext_unit (.negotiation optcode option) reading
    refine ⟨next,same,read,?_⟩
    change next.session = (respondTelnetOption optcode option st.session).2 at effect
    rw [effect]
    exact respondTelnetOption_serves serves optcode option
  | data byte plain =>
    obtain ⟨next,same,read,effect⟩ := scanNext_unit (.data byte plain) reading
    change next.session = st.session at effect
    exact ⟨next,same,read,effect ▸ serves,effect ▸ Said.refl _⟩
  | quoted =>
    obtain ⟨next,same,read,effect⟩ := scanNext_unit .quoted reading
    change next.session = st.session at effect
    exact ⟨next,same,read,effect ▸ serves,effect ▸ Said.refl _⟩
  | command optcode other =>
    obtain ⟨next,same,read,effect⟩ := scanNext_unit (.command optcode other) reading
    change next.session = st.session at effect
    exact ⟨next,same,read,effect ▸ serves,effect ▸ Said.refl _⟩

theorem scanNext_takeAll {st : Scan} {done left : List UInt8} {v : Service}
    (units : List TelnetUnit) (coded : ∀ unit ∈ units, unit.Coded)
    (reading : Reading st done (units.flatMap TelnetUnit.encode ++ left))
    (serves : Serves st.session v) :
    ∃ next, scanNext st = scanNext next ∧
      Reading next (done ++ units.flatMap TelnetUnit.decoded) left ∧
      Serves next.session (v.takeAll units).1 ∧
      Said (v.takeAll units).2 st.session next.session := by
  induction units generalizing st done v with
  | nil => exact ⟨st,rfl,by simpa using reading,serves,Said.refl _⟩
  | cons unit units ih =>
    obtain ⟨now,later⟩ := List.forall_mem_cons.mp coded
    rw [List.flatMap_cons,List.append_assoc] at reading
    obtain ⟨next,step,further,served,said⟩ := scanNext_serves unit now reading serves
    obtain ⟨last,steps,read,all,more⟩ := ih later further served
    refine ⟨last,step.trans steps,?_,all,said.trans more⟩
    rw [List.flatMap_cons,← List.append_assoc]
    exact read

/-- What a scan makes of a buffer of whole units. -/
theorem processTelnetOptions_serves {g : Gateway} {start : Int} {units : List TelnetUnit}
    {v : Service} (coded : ∀ unit ∈ units, unit.Coded)
    (holds : Holds g.buff start (units.flatMap TelnetUnit.encode)) (serves : Serves g.session v) :
    Serves (processTelnetOptions g).session (v.takeAll units).1 ∧
      Said (v.takeAll units).2 g.session (processTelnetOptions g).session := by
  have reading : Reading {g with iac := g.buff.writep, size := g.buff.nbuffered} []
      (units.flatMap TelnetUnit.encode ++ []) := by
    refine ⟨⟨start,by simpa using holds,?_⟩,by simpa using holds.counted⟩
    intro _
    simpa using holds.starts
  obtain ⟨next,scan,read,served⟩ := scanNext_takeAll units coded reading serves
  rw [processTelnetOptions_eq,scan,scanNext_none read (by simp)]
  exact served

/-- The service of a session that begins: it has made its offers and asks for a signature. -/
def Service.start (s : Session) : Service where
  ledger := Ledger.start.offer
  registers := Registers.of s.device.term
  asking := true
  loggedIn := true
  signature := SerialIp.signature s

def offers : List ClientUnit := initialOffers.map fun command => .negotiation command.1 command.2

/-- The world of a session in which nothing fails: every call of the terminal interface, of
malloc() and of write() on the socket does what it is asked for. -/
structure Faithful (s : Session) : Prop where
  complete : ∀ reply ∈ s.replies, reply = .all
  fresh : s.wire = []
  succeeds : s.device.Succeeds
  plenty : ∀ alloc ∈ s.allocs, alloc = true
  whole : (stuff IAC (signature s)).length ≤ 253

theorem telnetInit_announces {s : Session} (settled : Settled (resetGlobals s)) :
    ∃ new, Announces (resetGlobals s) (telnetInit s) new := by
  apply telnetInit_keeps (fun t => ∃ new, Announces (resetGlobals s) t new)
  · intro optcode option t announces
    obtain ⟨first,early⟩ := announces
    obtain ⟨second,late⟩ := sendTelnetOption_announces early.settled optcode option
    exact ⟨_,early.trans late⟩
  · exact ⟨[],Announces.refl settled⟩

theorem sessionStart_serves {s : Session} (faithful : Faithful s) :
    Serves (sessionStart s) (Service.start s) ∧
      (sessionStart s).wire.flatten = offers.flatMap ClientUnit.encode := by
  have records := sessionStart_records faithful.complete faithful.fresh
  have settled : Settled (resetGlobals {s with sabre := bfmalloc SIZE_BUFFER}) := by
    refine ⟨faithful.complete,rfl,?_,bfmalloc_holds SIZE_BUFFER⟩
    change 3 ≤ (bfmalloc SIZE_BUFFER).size
    decide
  obtain ⟨new,announces⟩ := telnetInit_announces settled
  have wire : (sessionStart s).wire = new.map fun command => optstr command.1 command.2 := by
    have wire := announces.wire
    change (sessionStart s).wire = s.wire ++ _ at wire
    rw [faithful.fresh] at wire
    exact wire
  have told : new = initialOffers := by
    have announced := records.announced
    unfold transmitted at announced
    rw [wire,optstr_transmitted] at announced
    exact announced
  refine ⟨⟨records,?_,?_,announces.asking,rfl,?_,announces.signature,faithful.whole,?_⟩,?_⟩
  · exact congrArg (fun device : SerialDevice => Registers.of device.term) announces.device
  · change (telnetInit _).device.Succeeds
    rw [announces.device]
    exact faithful.succeeds
  · change ∀ alloc ∈ (telnetInit _).allocs, alloc = true
    rw [announces.allocs]
    exact faithful.plenty
  · exact announces.size.trans (bfmalloc_size (by decide))
  · rw [wire,told]
    rfl

end SerialIp

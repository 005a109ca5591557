import Mathlib.Data.Fintype.Prod
import SerialIp.Library.Machine
import SerialIp.Negotiation
import SerialIp.TelnetUnits

/-! Negotiation over whole sessions: no answer, suboption or idle message breaks
the ledger, so whatever the client sends, no command is announced twice. -/
namespace SerialIp
open Library Buffer Session

theorem transmit_records {s : Session} {l : Ledger} (records : Records s l) {first second : UInt8}
    (rest : List UInt8) (other : first ≠ IAC ∨ OptCode.ofByte? second = none) :
    Records (s.appendToSabre (first::second::rest)).writeSabre.2 l := by
  obtain ⟨_,wire,settled⟩ := transmit_settled records.settled (List.cons_ne_nil first (second::rest))
  have transmits := (appendToSabre_transmits (first::second::rest) s).trans (writeSabre_transmits _)
  refine ⟨settled,?_,?_,?_⟩
  · rw [transmits.tnoptions]
    exact records.flags
  · intro optcode option
    rw [← records.marks]
    cases optcode <;> simp only [telnetOptionWasSent,transmits.tnoptions]
  · obtain ⟨n,size⟩ : ∃ n, s.sabre.size.toNat = n+2 := by
      have room := records.settled.room
      exact ⟨s.sabre.size.toNat-2,by omega⟩
    unfold transmitted
    rw [wire,size,List.filterMap_append,List.take_succ_cons,List.take_succ_cons]
    rw [List.filterMap_cons_none (asNegotiation_other other),List.filterMap_nil,List.append_nil]
    exact records.announced

theorem sendTelnetCpcSuboption_records {s : Session} {l : Ledger} (records : Records s l)
    (suboptcode : UInt8) (content : List UInt8) :
    Records (sendTelnetCpcSuboption suboptcode content s).2 l := by
  obtain ⟨rest,begins⟩ : ∃ rest, suboption suboptcode content = IAC::SB::rest := ⟨_,rfl⟩
  have built : Records {s with optstr := (buildSuboption s.optstr suboptcode content).1} l :=
    records.congr rfl rfl rfl rfl rfl
  have sent : Records ({s with optstr := (buildSuboption s.optstr suboptcode content).1}.appendToSabre
      (IAC::SB::rest)).writeSabre.2 l := transmit_records built rest (Or.inr (by decide))
  have resumed : ({s with optstr := (buildSuboption s.optstr suboptcode content).1}.appendToSabre
      (IAC::SB::rest)).sessionState = .RESUME := records.settled.resumed
  unfold sendTelnetCpcSuboption
  dsimp only
  rw [buildSuboption_read,begins,if_pos resumed]
  split
  · exact sent
  · exact sent

theorem processTelnetCpcSuboption_records {s : Session} {l : Ledger} (records : Records s l)
    (mem : Block UInt8) (optstr optlen : Int) :
    Records (processTelnetCpcSuboption mem optstr optlen s).2 l := by
  have survives : Survives (Records · l) := by
    refine ⟨?_,?_,?_,?_,?_⟩
    · intro suboptcode content t records
      exact sendTelnetCpcSuboption_records records suboptcode content
    · intro device t records
      exact records.congr rfl rfl rfl rfl rfl
    · intro allocs t records
      exact records.congr rfl rfl rfl rfl rfl
    · intro asked t records
      exact records.congr rfl rfl rfl rfl rfl
    · intro text t records
      exact records.congr rfl rfl rfl rfl rfl
  rcases processTelnetCpcSuboption_cases mem optstr optlen s with same | ⟨command,suboptcode,text,same⟩
  · rw [same]
    exact records
  · rw [same]
    apply survives.dispatch
    exact records.congr rfl rfl rfl rfl rfl

theorem scanCommand_session {holds : Session → Prop}
    (option : ∀ optcode option s, holds s → holds (respondTelnetOption optcode option s).2)
    (suboption : ∀ mem start size s, holds s → holds (processTelnetCpcSuboption mem start size s).2)
    {st : Scan} (start : holds st.session) : holds (scanCommand st).session := by
  rcases scanCommand_answers st with same | ⟨optcode,key,same⟩ | ⟨key,same⟩
  · rw [same]
    exact start
  · rw [same]
    exact option optcode key st.session start
  · rw [same]
    unfold answerSuboption
    split
    · exact suboption _ _ _ _ start
    · exact start

theorem processTelnetOptions_session {holds : Session → Prop}
    (option : ∀ optcode option s, holds s → holds (respondTelnetOption optcode option s).2)
    (suboption : ∀ mem start size s, holds s → holds (processTelnetCpcSuboption mem start size s).2)
    {g : Gateway} (start : holds g.session) : holds (processTelnetOptions g).session :=
  processTelnetOptions_keeps (fun g => holds g.session)
    (fun _ => scanCommand_session option suboption) start

theorem socketToSerial_session (holds : Session → Prop)
    (option : ∀ optcode option s, holds s → holds (respondTelnetOption optcode option s).2)
    (suboption : ∀ mem start size s, holds s → holds (processTelnetCpcSuboption mem start size s).2)
    (reply : ReadReply) (answer : WriteReply) {g : Gateway} (start : holds g.session) :
    holds (socketToSerial reply answer g).1.session := by
  rw [socketToSerial_session_eq]
  rcases readSocket_cases reply g with ⟨_,same,_⟩ | ⟨_,_,⟨_,same⟩ | ⟨_,same⟩⟩
  · rw [same]
    exact start
  · rw [same]
    exact start
  · rw [same]
    exact processTelnetOptions_session option suboption start

def idleText : List UInt8 := ascii "\r\nserial_ip: terminating idle connection\r\n"

def terminateIdle (s : Session) : Session :=
  (sendTelnetOption .DO TELOPT_LOGOUT (s.appendToSabre idleText).writeSabre.2).2

/-- What happens on the side of the client: its socket is readable, or it has
been idle too long. -/
inductive ClientEvent
  | readable (reply : ReadReply) (answer : WriteReply)
  | idle

def clientStep (g : Gateway) : ClientEvent → Gateway
  | .readable reply answer => (socketToSerial reply answer g).1
  | .idle => {g with session := terminateIdle g.session}

theorem terminateIdle_records {s : Session} {l : Ledger} (records : Records s l) :
    Records (terminateIdle s) (l.send .DO TELOPT_LOGOUT) := by
  obtain ⟨rest,text⟩ : ∃ rest, idleText = 13::10::rest := ⟨_,rfl⟩
  have told : Records (s.appendToSabre (13::10::rest)).writeSabre.2 l :=
    transmit_records records rest (Or.inl (by decide))
  unfold terminateIdle
  rw [text]
  exact sendTelnetOption_records told .DO TELOPT_LOGOUT

theorem clientStep_records {g : Gateway} (records : ∃ l, Records g.session l) (event : ClientEvent) :
    ∃ l, Records (clientStep g event).session l := by
  cases event with
  | readable reply answer =>
    apply socketToSerial_session (fun s => ∃ l, Records s l) _ _ reply answer records
    · intro optcode option s recorded
      obtain ⟨l,records⟩ := recorded
      exact ⟨_,respondTelnetOption_records records optcode option⟩
    · intro mem start size s recorded
      obtain ⟨l,records⟩ := recorded
      exact ⟨l,processTelnetCpcSuboption_records records mem start size⟩
  | idle =>
    obtain ⟨l,records⟩ := records
    exact ⟨_,terminateIdle_records records⟩

instance : Fintype OptCode := ⟨{.WILL,.WONT,.DO,.DONT},fun optcode => by cases optcode <;> decide⟩

theorem clientRun_records (s : Session) (buff : Buffer) (events : List ClientEvent)
    (complete : ∀ reply ∈ s.replies, reply = .all) (fresh : s.wire = []) :
    ∃ l, Records (Machine.run clientStep ⟨buff,sessionStart s⟩ events).session l := by
  have start : ∃ l, Records (Gateway.mk buff (sessionStart s)).session l :=
    ⟨_,sessionStart_records complete fresh⟩
  exact Machine.invariant_run (fun g : Gateway => ∃ l, Records g.session l)
    (fun g event records => clientStep_records records event) start events

theorem wasSent_iff_transmitted (s : Session) (buff : Buffer) (events : List ClientEvent)
    (complete : ∀ reply ∈ s.replies, reply = .all) (fresh : s.wire = []) (optcode : OptCode)
    (option : UInt8) :
    telnetOptionWasSent optcode option (Machine.run clientStep ⟨buff,sessionStart s⟩ events).session ↔
      (optcode,option) ∈ transmitted (Machine.run clientStep ⟨buff,sessionStart s⟩ events).session := by
  obtain ⟨l,records⟩ := clientRun_records s buff events complete fresh
  rw [records.announced]
  exact records.marks optcode option

/-- Whatever the client sends and however often it idles: no negotiation command
is transmitted twice, so there are at most 4 * 256 of them in a session. -/
theorem negotiation_bounded (s : Session) (buff : Buffer) (events : List ClientEvent)
    (complete : ∀ reply ∈ s.replies, reply = .all) (fresh : s.wire = []) :
    (∀ optcode option, (transmitted (Machine.run clientStep ⟨buff,sessionStart s⟩ events).session).count
        (optcode,option) ≤ 1) ∧
      (transmitted (Machine.run clientStep ⟨buff,sessionStart s⟩ events).session).length ≤ 4*256 := by
  obtain ⟨l,records⟩ := clientRun_records s buff events complete fresh
  rw [records.announced]
  refine ⟨fun optcode option => l.log.count_le_one (optcode,option),?_⟩
  have bound := l.log.length_le_card (f := Prod.map id UInt8.toFin)
    (Function.injective_id.prodMap (fun a b same => UInt8.toFin_inj.mp same))
  rw [Fintype.card_prod,Fintype.card_fin] at bound
  exact bound

theorem negotiation_bounded_repeated : (transmitted (Machine.run clientStep
    ⟨bfmalloc SIZE_BUFFER,sessionStart (processStart ⟨⟨0,0,0xBD,0⟩,[]⟩)⟩
    [.readable (.bytes [IAC,DO,7,IAC,DO,7]) .all,.idle,.idle]).session).count (.WONT,7) ≤ 1 :=
  (negotiation_bounded (processStart ⟨⟨0,0,0xBD,0⟩,[]⟩) (bfmalloc SIZE_BUFFER)
    [.readable (.bytes [IAC,DO,7,IAC,DO,7]) .all,.idle,.idle]
    (fun _ member => absurd member List.not_mem_nil) rfl).1 .WONT 7

end SerialIp

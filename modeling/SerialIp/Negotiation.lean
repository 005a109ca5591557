import SerialIp.BufferContent
import SerialIp.Library.Once
import SerialIp.TelnetEffects

/-! Option negotiation as a ledger: every command is written down at most once,
and each side of each option is on or off. The session refines it as long as
every write() takes all it is offered. -/
namespace SerialIp
open Library Buffer Session

def asNegotiation : List UInt8 → Option (OptCode × UInt8)
  | [first,optcode,option] =>
    if first = IAC then (OptCode.ofByte? optcode).map (·,option) else none
  | _ => none

def transmitted (s : Session) : List (OptCode × UInt8) := s.wire.filterMap asNegotiation

theorem asNegotiation_optstr (optcode : OptCode) (option : UInt8) :
    asNegotiation (optstr optcode option) = some (optcode,option) := by
  simp [asNegotiation,optstr]

theorem asNegotiation_other {first second : UInt8} {rest : List UInt8}
    (other : first ≠ IAC ∨ OptCode.ofByte? second = none) :
    asNegotiation (first::second::rest) = none := by
  unfold asNegotiation
  split
  · rename_i same
    cases same
    rcases other with plain | unknown
    · exact if_neg plain
    · rw [unknown]
      exact ite_self none
  · rfl

/-- Nothing waits in the buffer towards the client and every write() to come
takes all it is offered. -/
structure Settled (s : Session) : Prop where
  complete : ∀ reply ∈ s.replies, reply = .all
  resumed : s.sessionState = .RESUME
  room : 3 ≤ s.sabre.size
  empty : Holds s.sabre 0 []

/-- A transmission out of a settled session goes through in one write(), up to
the size of the buffer. -/
theorem transmit_settled {s : Session} (settled : Settled s) {bytes : List UInt8}
    (some : bytes ≠ []) :
    (s.appendToSabre bytes).writeSabre.1 = (bytes.take s.sabre.size.toNat).length ∧
      (s.appendToSabre bytes).writeSabre.2.wire = s.wire ++ [bytes.take s.sabre.size.toNat] ∧
      Settled (s.appendToSabre bytes).writeSabre.2 := by
  obtain ⟨complete,resumed,room,empty⟩ := settled
  have counted := empty.counted
  have limit : appended s.sabre bytes.length = min (bytes.length : Int) s.sabre.size := by
    unfold appended
    rw [counted]
    split_ifs <;> simp only [List.length_nil,Nat.cast_zero] at * <;> omega
  have holds := bfstrncat_holds empty bytes (le_refl _) (by rw [limit]; omega)
  have same : bytes.take (appended s.sabre bytes.length).toNat = bytes.take s.sabre.size.toNat := by
    rw [limit,List.take_eq_take_iff]
    omega
  rw [same,List.nil_append] at holds
  have positive : 0 < bytes.length := List.length_pos_iff.mpr some
  have offered := calNumbytesToWrite_eq holds
  have answer : s.replies.headD .all = .all := by
    cases replies : s.replies with
    | nil => rfl
    | cons reply rest => exact complete reply (by rw [replies]; exact List.mem_cons_self)
  obtain ⟨moved,ret,rest⟩ := writeFromBufferToFd_all holds
  have some' : bytes.take s.sabre.size.toNat ≠ [] := by
    rw [← List.length_pos_iff,List.length_take]
    omega
  rw [if_neg some'] at rest
  have write : (s.appendToSabre bytes).writeSabre =
      (((bytes.take s.sabre.size.toNat).length : Int),
        {s with sabre := (writeFromBufferToFd .all (bfstrncat s.sabre bytes bytes.length).2).buff,
                replies := s.replies.tail,
                wire := s.wire ++ [bytes.take s.sabre.size.toNat]}) := by
    unfold writeSabre appendToSabre
    dsimp only
    rw [answer,offered,if_neg (by rw [List.length_take]; omega),moved,ret]
  rw [write]
  refine ⟨rfl,rfl,?_,resumed,?_,rest⟩
  · intro reply member
    exact complete reply (List.mem_of_mem_tail member)
  · dsimp only
    rw [writeFromBufferToFd_size,bfstrncat_size]
    exact room

/-- What has been announced to the client, and what is on. -/
structure Ledger where
  log : Once (OptCode × UInt8)
  enabled : Side → UInt8 → Bool

namespace Ledger

def start : Ledger := ⟨Once.empty,fun _ _ => false⟩

def send (optcode : OptCode) (option : UInt8) (l : Ledger) : Ledger :=
  {l with log := l.log.add (optcode,option)}

def turn (side : Side) (option : UInt8) (value : Bool) (l : Ledger) : Ledger :=
  {l with enabled := fun other key =>
    if other = side ∧ key = option then value else l.enabled other key}

def answer (optcode : OptCode) (option : UInt8) (l : Ledger) : Ledger :=
  if l.enabled optcode.side option = optcode.enables then l
  else (l.send optcode.reply option).turn optcode.side option optcode.enables

def supported : List UInt8 :=
  [TELOPT_BINARY,TELOPT_ECHO,TELOPT_SGA,TELOPT_LOGOUT,TELOPT_COM_PORT_OPTION]

def respond (optcode : OptCode) (option : UInt8) (l : Ledger) : Ledger :=
  if option ∈ supported then l.answer optcode option
  else l.send (negativeAnswer optcode) option

def offer (l : Ledger) : Ledger :=
  initialOffers.foldl (fun l offer => l.send offer.1 offer.2) l

end Ledger

/-- The refinement: the session announced what the ledger says, in that order,
its sent bits mark exactly that, and its flags are the ledger's. -/
structure Records (s : Session) (l : Ledger) : Prop where
  settled : Settled s
  flags : ∀ side option, (s.tnoptions option).flag side = l.enabled side option
  marks : ∀ optcode option, telnetOptionWasSent optcode option s ↔ (optcode,option) ∈ l.log.entries
  announced : transmitted s = l.log.entries

theorem Records.congr {s t : Session} {l : Ledger} (records : Records s l)
    (options : t.tnoptions = s.tnoptions) (state : t.sessionState = s.sessionState)
    (sabre : t.sabre = s.sabre) (replies : t.replies = s.replies) (wire : t.wire = s.wire) :
    Records t l := by
  obtain ⟨⟨complete,resumed,room,empty⟩,flags,marks,announced⟩ := records
  refine ⟨⟨?_,?_,?_,?_⟩,?_,?_,?_⟩
  · rw [replies]
    exact complete
  · rw [state]
    exact resumed
  · rw [sabre]
    exact room
  · rw [sabre]
    exact empty
  · rw [options]
    exact flags
  · intro optcode option
    rw [← marks]
    cases optcode <;> simp only [telnetOptionWasSent,options]
  · unfold transmitted
    rw [wire]
    exact announced

theorem markTelnetOptionAsSent_sent (optcode other : OptCode) (option key : UInt8) (s : Session) :
    telnetOptionWasSent other key (markTelnetOptionAsSent optcode option s) ↔
      telnetOptionWasSent other key s ∨ (other = optcode ∧ key = option) := by
  by_cases same : key = option
  · subst key
    cases optcode <;> cases other <;>
      simp [telnetOptionWasSent,markTelnetOptionAsSent,setOption]
  · cases optcode <;> cases other <;>
      simp [telnetOptionWasSent,markTelnetOptionAsSent,setOption,same]

theorem markTelnetOptionAsSent_flag (optcode : OptCode) (option key : UInt8) (side : Side)
    (s : Session) :
    ((markTelnetOptionAsSent optcode option s).tnoptions key).flag side =
      (s.tnoptions key).flag side := by
  by_cases same : key = option
  · subst key
    cases optcode <;> cases side <;> simp [markTelnetOptionAsSent,setOption,TelnetOptions.flag]
  · cases optcode <;> simp [markTelnetOptionAsSent,setOption,Function.update_of_ne same]

theorem Settled.setOption {s : Session} (settled : Settled s) (option : UInt8)
    (change : TelnetOptions → TelnetOptions) : Settled (s.setOption option change) :=
  ⟨settled.complete,settled.resumed,settled.room,settled.empty⟩

theorem markTelnetOptionAsSent_settled {s : Session} (settled : Settled s) (optcode : OptCode)
    (option : UInt8) : Settled (markTelnetOptionAsSent optcode option s) := by
  cases optcode <;> exact ⟨settled.complete,settled.resumed,settled.room,settled.empty⟩

theorem markTelnetOptionAsSent_wire (optcode : OptCode) (option : UInt8) (s : Session) :
    (markTelnetOptionAsSent optcode option s).wire = s.wire := by
  cases optcode <;> rfl

theorem setFlag_sent (side : Side) (value : Bool) (option : UInt8) (optcode : OptCode)
    (key : UInt8) (s : Session) :
    telnetOptionWasSent optcode key (s.setOption option (TelnetOptions.setFlag side value)) =
      telnetOptionWasSent optcode key s := by
  by_cases same : key = option
  · subst key
    cases optcode <;> cases side <;>
      simp [telnetOptionWasSent,setOption,TelnetOptions.setFlag]
  · cases optcode <;> simp [telnetOptionWasSent,setOption,Function.update_of_ne same]

theorem setFlag_flag (side other : Side) (value : Bool) (option key : UInt8) (s : Session) :
    ((s.setOption option (TelnetOptions.setFlag side value)).tnoptions key).flag other =
      if other = side ∧ key = option then value else (s.tnoptions key).flag other := by
  by_cases same : key = option
  · subst key
    cases other <;> cases side <;> simp [setOption,TelnetOptions.flag,TelnetOptions.setFlag]
  · simp [setOption,same]

theorem sendTelnetOption_records {s : Session} {l : Ledger} (records : Records s l)
    (optcode : OptCode) (option : UInt8) :
    Records (sendTelnetOption optcode option s).2 (l.send optcode option) := by
  have settled := records.settled
  by_cases sent : telnetOptionWasSent optcode option s
  · unfold sendTelnetOption Ledger.send
    rw [if_pos sent,Once.add_of_mem ((records.marks _ _).mp sent)]
    exact records
  · have fresh : (optcode,option) ∉ l.log.entries := fun present =>
      sent ((records.marks _ _).mpr present)
    have bytes : (optstr optcode option).take s.sabre.size.toNat = optstr optcode option := by
      apply List.take_of_length_le
      have room := settled.room
      simp only [optstr,List.length_cons,List.length_nil]
      omega
    obtain ⟨ret,wire,settled'⟩ := transmit_settled settled (by simp [optstr] :
      optstr optcode option ≠ [])
    rw [bytes] at ret wire
    have transmits := (appendToSabre_transmits (optstr optcode option) s).trans (writeSabre_transmits _)
    have result : (sendTelnetOption optcode option s).2 = markTelnetOptionAsSent optcode option
        (s.appendToSabre (optstr optcode option)).writeSabre.2 := by
      have resumed : (s.appendToSabre (optstr optcode option)).sessionState = .RESUME :=
        settled.resumed
      unfold sendTelnetOption
      rw [if_neg sent]
      dsimp only
      rw [if_pos resumed,if_pos (by rw [ret]; simp [optstr])]
    rw [result]
    refine ⟨markTelnetOptionAsSent_settled settled' optcode option,?_,?_,?_⟩
    · intro side key
      rw [markTelnetOptionAsSent_flag,transmits.tnoptions]
      exact records.flags side key
    · intro other key
      have before : telnetOptionWasSent other key
          (s.appendToSabre (optstr optcode option)).writeSabre.2 = telnetOptionWasSent other key s := by
        cases other <;> simp only [telnetOptionWasSent,transmits.tnoptions]
      rw [markTelnetOptionAsSent_sent,before,records.marks]
      unfold Ledger.send
      rw [Once.mem_add,Prod.mk.injEq]
    · unfold Ledger.send
      dsimp only
      rw [Once.add_of_notMem fresh,← records.announced]
      unfold transmitted
      rw [markTelnetOptionAsSent_wire,wire,List.filterMap_append]
      simp [asNegotiation_optstr]

theorem turn_records {s : Session} {l : Ledger} (records : Records s l) (side : Side)
    (option : UInt8) (value : Bool) :
    Records (s.setOption option (TelnetOptions.setFlag side value)) (l.turn side option value) := by
  refine ⟨records.settled.setOption option _,?_,?_,records.announced⟩
  · intro other key
    rw [setFlag_flag,records.flags]
    rfl
  · intro optcode key
    rw [setFlag_sent]
    exact records.marks optcode key

theorem answerTelnetOption_records {s : Session} {l : Ledger} (records : Records s l)
    {setMode : Side → TnMode → Session → Session}
    (neutral : ∀ {s l}, Records s l → ∀ side mode, Records (setMode side mode s) l)
    (optcode : OptCode) (option : UInt8) :
    Records (answerTelnetOption setMode optcode option s).2 (l.answer optcode option) := by
  rw [answerTelnetOption_eq,records.flags]
  unfold Ledger.answer
  split
  · exact records
  · apply neutral
    apply turn_records
    exact sendTelnetOption_records records optcode.reply option

theorem answerKnown_records {s : Session} {l : Ledger} (records : Records s l) (optcode : OptCode)
    (option : UInt8) : Records (answerKnown optcode option s).2 (l.answer optcode option) := by
  apply answerTelnetOption_records records
  intro s l records side mode
  exact records

theorem answerBinary_records {s : Session} {l : Ledger} (records : Records s l) (optcode : OptCode)
    (option : UInt8) : Records (answerBinary optcode option s).2 (l.answer optcode option) := by
  apply answerTelnetOption_records records
  intro s l records side mode
  exact records.congr rfl rfl rfl rfl rfl

theorem respondKnownTelnetOption_records {s : Session} {l : Ledger} (records : Records s l)
    (optcode : OptCode) (option : UInt8) :
    Records (respondKnownTelnetOption optcode option s).2 (l.answer optcode option) := by
  unfold respondKnownTelnetOption
  split
  · exact answerBinary_records records optcode option
  · exact answerKnown_records records optcode option

theorem respondTelnetBinaryOption_records {s : Session} {l : Ledger} (records : Records s l)
    (optcode : OptCode) (option : UInt8) :
    Records (respondTelnetBinaryOption optcode option s).2 (l.answer optcode option) := by
  unfold respondTelnetBinaryOption
  split
  · exact answerKnown_records records optcode option
  · exact answerBinary_records records optcode option

theorem respondTelnetOption_records {s : Session} {l : Ledger} (records : Records s l)
    (optcode : OptCode) (option : UInt8) :
    Records (respondTelnetOption optcode option s).2 (l.respond optcode option) := by
  have noticed : Records (s.notice (.received optcode option)) l := records.congr rfl rfl rfl rfl rfl
  have logout (t : Session) {m : Ledger} (records : Records t m) :
      Records (if optcode = .WILL ∨ optcode = .DO then {t with clientLoggedIn := false} else t) m := by
    split
    · exact records.congr rfl rfl rfl rfl rfl
    · exact records
  unfold respondTelnetOption Ledger.respond
  dsimp only
  by_cases known : option = TELOPT_COM_PORT_OPTION ∨ option = TELOPT_ECHO ∨ option = TELOPT_SGA
  · have member : option ∈ Ledger.supported := by
      rcases known with rfl | rfl | rfl <;> decide
    rw [if_pos known,if_pos member]
    exact respondKnownTelnetOption_records noticed optcode option
  · rw [if_neg known]
    by_cases leaving : option = TELOPT_LOGOUT
    · have member : option ∈ Ledger.supported := by
        rw [leaving]
        decide
      rw [if_pos leaving,if_pos member]
      exact logout _ (respondKnownTelnetOption_records noticed optcode option)
    · rw [if_neg leaving]
      by_cases binary : option = TELOPT_BINARY
      · have member : option ∈ Ledger.supported := by
          rw [binary]
          decide
        rw [if_pos binary,if_pos member]
        exact respondTelnetBinaryOption_records noticed optcode option
      · have unknown : option ∉ Ledger.supported := by
          simp only [not_or] at known
          simp [Ledger.supported,binary,leaving,known.1,known.2.1,known.2.2]
        rw [if_neg binary,if_neg unknown]
        exact sendTelnetOption_records noticed (negativeAnswer optcode) option

theorem telnetInit_records {s : Session} (complete : ∀ reply ∈ s.replies, reply = .all)
    (room : 3 ≤ s.sabre.size) (empty : Holds s.sabre 0 []) (fresh : s.wire = []) :
    Records (telnetInit s) Ledger.start.offer := by
  have reset : Records (resetGlobals s) Ledger.start := by
    refine ⟨⟨complete,rfl,room,empty⟩,?_,?_,?_⟩
    · intro side option
      cases side <;> rfl
    · intro optcode option
      cases optcode <;> simp [telnetOptionWasSent,resetGlobals,Ledger.start,Once.empty]
    · unfold transmitted resetGlobals
      dsimp only
      rw [fresh]
      rfl
  have offers (offers : List (OptCode × UInt8)) {t : Session} {l : Ledger} (records : Records t l) :
      Records (offers.foldl (fun s offer => (sendInitTelnetOption offer.1 offer.2 s).2) t)
        (offers.foldl (fun l offer => l.send offer.1 offer.2) l) := by
    induction offers generalizing t l with
    | nil => exact records
    | cons offer offers ih => exact ih (sendTelnetOption_records records offer.1 offer.2)
  exact offers initialOffers reset

theorem sessionStart_records {s : Session} (complete : ∀ reply ∈ s.replies, reply = .all)
    (fresh : s.wire = []) : Records (sessionStart s) Ledger.start.offer := by
  have init : Records (telnetInit {s with sabre := bfmalloc SIZE_BUFFER}) Ledger.start.offer :=
    telnetInit_records complete (by rw [bfmalloc_size (by decide)]; decide) (bfmalloc_holds _) fresh
  exact init.congr rfl rfl rfl rfl rfl

end SerialIp

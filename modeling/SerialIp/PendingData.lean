import SerialIp.Library.Machine
import SerialIp.TelnetDecoding

/-! The socket-to-serial path over several reads and short writes. The scan begins
at `writep`, so decoded bytes that still wait for the serial port are scanned again with
what arrives; this does no harm as long as none of them is an IAC. -/
namespace SerialIp
open Library Buffer

/-- The data of a stream of complete units without suboptions. -/
def decode : List UInt8 → List UInt8
  | [] => []
  | [x] => [x]
  | x::y::rest =>
    if x ≠ IAC then x::decode (y::rest)
    else if y = IAC then IAC::decode rest
    else match OptCode.ofByte? y,rest with
    | some _,_::rest => decode rest
    | _,rest => decode rest

theorem decode_data {byte : UInt8} (plain : byte ≠ IAC) (rest : List UInt8) :
    decode (byte::rest) = byte::decode rest := by
  cases rest with
  | nil => rfl
  | cons y rest =>
    conv_lhs => unfold decode
    exact if_pos plain

theorem decode_unit (unit : TelnetUnit) (simple : unit.Simple) (rest : List UInt8) :
    decode (unit.encode ++ rest) = unit.decoded ++ decode rest := by
  cases unit with
  | data byte plain => exact decode_data plain rest
  | quoted => rfl
  | command optcode other =>
    simp only [List.mem_cons,List.not_mem_nil,or_false,not_or] at other
    obtain ⟨notIac,notWill,notWont,notDo,notDont,_⟩ := other
    have unknown : OptCode.ofByte? optcode = none := by
      simp [OptCode.ofByte?,notWill,notWont,notDo,notDont]
    change decode (IAC::optcode::rest) = decode rest
    conv_lhs => unfold decode
    rw [if_neg (not_not.mpr rfl),if_neg notIac,unknown]
  | negotiation optcode option =>
    have notIac : optcode.byte ≠ IAC := by
      cases optcode <;> decide
    change decode (IAC::optcode.byte::option::rest) = decode rest
    conv_lhs => unfold decode
    rw [if_neg (not_not.mpr rfl),if_neg notIac,OptCode.ofByte?_byte]
  | suboption option body framed => exact simple.elim

theorem decode_units {units : List TelnetUnit} (simple : ∀ unit ∈ units, unit.Simple) :
    decode (units.flatMap TelnetUnit.encode) = units.flatMap TelnetUnit.decoded := by
  induction units with
  | nil => rfl
  | cons unit units ih =>
    rw [List.flatMap_cons,List.flatMap_cons,decode_unit unit (simple unit List.mem_cons_self),
      ih fun unit member => simple unit (List.mem_cons_of_mem _ member)]

/-- The bytes are complete units, none of them a suboption. -/
def SimpleUnits (bytes : List UInt8) : Prop :=
  ∃ units : List TelnetUnit, bytes = units.flatMap TelnetUnit.encode ∧ ∀ unit ∈ units, unit.Simple

theorem SimpleUnits.data {bytes : List UInt8} (absent : IAC ∉ bytes) : SimpleUnits bytes ∧
    decode bytes = bytes := by
  induction bytes with
  | nil => exact ⟨⟨[],rfl,fun _ member => absurd member List.not_mem_nil⟩,rfl⟩
  | cons byte bytes ih =>
    simp only [List.mem_cons,not_or] at absent
    obtain ⟨⟨units,encoded,simple⟩,same⟩ := ih absent.2
    refine ⟨⟨.data byte (Ne.symm absent.1)::units,?_,?_⟩,?_⟩
    · rw [List.flatMap_cons,← encoded]
      rfl
    · intro unit member
      rcases List.mem_cons.mp member with rfl | later
      · trivial
      · exact simple unit later
    · rw [decode_data (Ne.symm absent.1),same]

theorem decode_append {front : List UInt8} (absent : IAC ∉ front) (bytes : List UInt8) :
    decode (front ++ bytes) = front ++ decode bytes := by
  induction front with
  | nil => rfl
  | cons byte front ih =>
    simp only [List.mem_cons,not_or] at absent
    rw [List.cons_append,decode_data (Ne.symm absent.1),ih absent.2,List.cons_append]

theorem SimpleUnits.append {front bytes : List UInt8} (first : SimpleUnits front)
    (second : SimpleUnits bytes) : SimpleUnits (front ++ bytes) := by
  obtain ⟨units,rfl,simple⟩ := first
  obtain ⟨others,rfl,further⟩ := second
  refine ⟨units ++ others,List.flatMap_append.symm,?_⟩
  intro unit member
  rcases List.mem_append.mp member with early | late
  · exact simple unit early
  · exact further unit late

/-- One read: complete units behind pending data without IAC are decoded, and the
pending data stay as they are. -/
theorem readSocket_decodes {g : Gateway} {start : Int} {pending : List UInt8}
    (holds : Holds g.buff start pending) {reply : ReadReply}
    (whole : SimpleUnits (readFromFdToBuffer reply g.buff).moved)
    (clean : (readFromFdToBuffer reply g.buff).moved ≠ [] → IAC ∉ pending) :
    ∃ origin, Holds (readSocket reply g).2.buff origin
      (pending ++ decode (readFromFdToBuffer reply g.buff).moved) := by
  have arrived := readFromFdToBuffer_holds holds reply
  have counted := readFromFdToBuffer_ret g.buff reply
  rcases readSocket_cases reply g with ⟨none,same,_⟩ | ⟨some,_,outcome⟩
  · have quiet := not_not.mp (mt counted.mpr (not_lt.mpr none))
    rw [quiet] at arrived ⊢
    rw [same]
    exact ⟨start,arrived⟩
  · have absent := clean (counted.mp some)
    rcases outcome with ⟨missing,same⟩ | ⟨_,same⟩
    · have none := bfstrchr_none arrived missing
      rw [List.mem_append,not_or] at none
      rw [same,(SimpleUnits.data none.2).2]
      exact ⟨start,arrived⟩
    · obtain ⟨units,encoded,simple⟩ := (SimpleUnits.data absent).1.append whole
      rw [encoded] at arrived
      rw [same,← decode_append absent,encoded,decode_units simple]
      exact (processTelnetOptions_holds (g := ⟨_,g.session⟩) arrived).1

structure SocketTraffic where
  gateway : Gateway
  chunks : List (List UInt8)
  accepted : List UInt8

inductive SocketMove
  | readSocket (reply : ReadReply)
  | writeSerial (reply : WriteReply)

def SocketTraffic.start (size : Int) (s : Session) : SocketTraffic := ⟨⟨bfmalloc size,s⟩,[],[]⟩

/-- `chunks` is what each read() delivered, `accepted` what the serial port took. -/
def socketStep (t : SocketTraffic) : SocketMove → SocketTraffic
  | .readSocket reply =>
    {t with gateway := (readSocket reply t.gateway).2,
            chunks := t.chunks ++ [(readFromFdToBuffer reply t.gateway.buff).moved]}
  | .writeSerial reply =>
    let result := writeSerial reply t.gateway.buff
    {t with gateway := {t.gateway with buff := result.buff},
            accepted := t.accepted ++ result.moved}

def DecodedOnce (t : SocketTraffic) : Prop :=
  t.accepted ++ t.gateway.buff.content = t.chunks.flatMap decode

def DeliversUnits (t : SocketTraffic) : SocketMove → Prop
  | .readSocket reply => SimpleUnits (readFromFdToBuffer reply t.gateway.buff).moved
  | .writeSerial _ => True

def PendingWithoutIac (t : SocketTraffic) : SocketMove → Prop
  | .readSocket reply =>
    (readFromFdToBuffer reply t.gateway.buff).moved ≠ [] → IAC ∉ t.gateway.buff.content
  | .writeSerial _ => True

/-- The buffer holds the decoded data that the serial port has not taken yet. -/
def Conserves (t : SocketTraffic) : Prop :=
  ∃ start pending, Holds t.gateway.buff start pending ∧
    t.accepted ++ pending = t.chunks.flatMap decode

theorem Conserves.decodedOnce {t : SocketTraffic} (conserves : Conserves t) : DecodedOnce t := by
  obtain ⟨start,pending,holds,law⟩ := conserves
  unfold DecodedOnce
  rw [holds.content_eq]
  exact law

theorem Conserves.step {t : SocketTraffic} (conserves : Conserves t) (move : SocketMove)
    (whole : DeliversUnits t move) (clean : PendingWithoutIac t move) :
    Conserves (socketStep t move) := by
  obtain ⟨start,pending,holds,law⟩ := conserves
  cases move with
  | readSocket reply =>
    unfold PendingWithoutIac at clean
    rw [holds.content_eq] at clean
    obtain ⟨origin,decoded⟩ := readSocket_decodes holds whole clean
    refine ⟨origin,_,decoded,?_⟩
    simp only [socketStep,List.flatMap_append,← law]
    simp
  | writeSerial reply =>
    unfold Conserves socketStep
    dsimp only
    rw [(writeSerial_buff _ _).1,(writeSerial_buff _ _).2]
    obtain ⟨rest,split,⟨none,kept⟩ | after⟩ := writeFromBufferToFd_holds holds reply
    · rw [none,kept,List.append_nil]
      exact ⟨start,pending,holds,law⟩
    · refine ⟨_,rest,after,?_⟩
      rw [List.append_assoc,← split]
      exact law

/-- However short the writes are: in a run that only reads while no IAC is pending,
nothing is decoded twice. -/
theorem decodedOnce_of_pending (size : Int) (s : Session) (moves : List SocketMove)
    (units : Machine.Along socketStep DeliversUnits (SocketTraffic.start size s) moves)
    (clean : Machine.Along socketStep PendingWithoutIac (SocketTraffic.start size s) moves) :
    Machine.Throughout socketStep DecodedOnce (SocketTraffic.start size s) moves :=
  Machine.throughout_along Conserves (fun t move => DeliversUnits t move ∧ PendingWithoutIac t move)
    (fun _ move conserves both => conserves.step move both.1 both.2)
    (fun _ conserves => conserves.decodedOnce) ⟨0,[],bfmalloc_holds size,rfl⟩ (units.and clean)

/-- Two bytes of which the serial port takes one, then a doubled IAC. -/
theorem decodedOnce_of_pending_ten : Machine.Throughout socketStep DecodedOnce
    (SocketTraffic.start 10 (processStart ⟨⟨0,0,0xBD,0⟩,[]⟩))
    [.readSocket (.bytes [65,66]),.writeSerial (.upTo 1),.readSocket (.bytes [IAC,IAC])] := by
  refine decodedOnce_of_pending 10 (processStart ⟨⟨0,0,0xBD,0⟩,[]⟩)
    [.readSocket (.bytes [65,66]),.writeSerial (.upTo 1),.readSocket (.bytes [IAC,IAC])] ?_ ?_
  · refine ⟨⟨[.data 65 (by decide),.data 66 (by decide)],by decide +kernel,?_⟩,trivial,
      ⟨[.quoted],by decide +kernel,?_⟩,trivial⟩
    · simp [TelnetUnit.Simple]
    · simp [TelnetUnit.Simple]
  · exact ⟨by unfold PendingWithoutIac; decide +kernel,trivial,
      by unfold PendingWithoutIac; decide +kernel,trivial⟩

/-- A decoded IAC that the serial port has not taken eats the next data byte. -/
theorem pending_iac_decoded_again : ¬∀ (size : Int) (s : Session) (moves : List SocketMove),
    Machine.Along socketStep DeliversUnits (SocketTraffic.start size s) moves →
    DecodedOnce (Machine.run socketStep (SocketTraffic.start size s) moves) := by
  intro always
  have law := always 10 (processStart ⟨⟨0,0,0xBD,0⟩,[]⟩) [.readSocket (.bytes [IAC,IAC]),
    .writeSerial (.upTo 0),.readSocket (.bytes [65])] ?_
  · unfold DecodedOnce at law
    revert law
    decide +kernel
  · refine ⟨⟨[.quoted],by decide +kernel,?_⟩,trivial,⟨[.data 65 (by decide)],by decide +kernel,?_⟩,
      trivial⟩
    · simp [TelnetUnit.Simple]
    · simp [TelnetUnit.Simple]

end SerialIp

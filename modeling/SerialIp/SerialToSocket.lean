import SerialIp.BufferRuns
import SerialIp.Library.Stuffing
import SerialIp.TelnetCodes

/-! The serial-to-socket path: read_serial with its escape pass and write_socket,
on one serial_to_socket_buf. -/
namespace SerialIp
open Library Buffer

/-- The loop of escape_iac_chars, entered with `iac` on an IAC and `size` bytes
of content from there on. -/
def escapeLoop (iac size : Int) (buff : Buffer) : Buffer :=
  let buff := (bfinsch buff iac IAC).2
  let size := size+1
  let ptr := iac+2
  let size := size-2
  if size > 0 then
    match _found : mystrchr buff.mem ptr IAC size with
    | none => buff
    | some next => escapeLoop next (size-(next-ptr)) buff
  else buff
termination_by size.toNat
decreasing_by
  have place := mystrchr_bounds _found
  omega

def escapeIacChars (buff : Buffer) : Buffer :=
  let (ptr,size) := bfPointToActivePortion buff
  match mystrchr buff.mem ptr IAC size with
  | none => buff
  | some iac => escapeLoop iac (size-(iac-ptr)) buff

def readSerial (noquote : Bool) (reply : ReadReply) (buff : Buffer) : Transfer :=
  let result := readFromFdToBuffer reply buff
  if result.ret < 0 then {result with ret := 1}
  else if result.ret = 0 then
    if bfeof result.buff then {result with ret := 1} else {result with ret := 0}
  else
    let quoted :=
      if !noquote then
        match bfstrchr result.buff IAC with
        | none => result.buff
        | some _ => escapeIacChars result.buff
      else result.buff
    ⟨0,quoted,result.moved⟩

def writeSocket (sessionState : SessionState) (reply : WriteReply) (buff : Buffer) : Transfer :=
  if sessionState = .SUSPEND then ⟨0,buff,[]⟩
  else
    let result := writeFromBufferToFd reply buff
    if result.ret < 0 then {result with ret := 1} else {result with ret := 0}

private theorem inserted_holds {buff : Buffer} {start : Int} {xs ys : List UInt8}
    (holds : Holds buff start (xs ++ IAC::ys)) :
    Holds (bfinsch buff (start+xs.length) IAC).2 start ((xs ++ [IAC,IAC]) ++ ys) := by
  simpa using bfinsch_holds holds IAC

private theorem inserted_place (start : Int) (xs : List UInt8) :
    start+xs.length+2 = start+(xs ++ [IAC,IAC]).length := by
  simp only [List.length_append,List.length_cons,List.length_nil]
  omega

theorem escapeLoop_last {buff : Buffer} {start : Int} {xs ys : List UInt8}
    (holds : Holds buff start (xs ++ IAC::ys)) (absent : IAC ∉ ys) :
    escapeLoop (start+xs.length) (ys.length+1) buff = (bfinsch buff (start+xs.length) IAC).2 := by
  have missing := (inserted_holds holds).search_none absent
  have left : (ys.length : Int)+1+1-2 = ys.length := by omega
  unfold escapeLoop
  dsimp only
  rw [left,inserted_place]
  split_ifs
  · split
    · rfl
    · rename_i spot located
      rw [missing] at located
      contradiction
  · rfl

theorem escapeLoop_next {buff : Buffer} {start : Int} {xs before after : List UInt8}
    (holds : Holds buff start (xs ++ IAC::(before ++ IAC::after))) (absent : IAC ∉ before) :
    escapeLoop (start+xs.length) ((before ++ IAC::after).length+1) buff =
      escapeLoop (start+(xs ++ [IAC,IAC] ++ before).length) (after.length+1)
        (bfinsch buff (start+xs.length) IAC).2 := by
  have found := (inserted_holds holds).search_first absent
  have left : ((before ++ IAC::after).length : Int)+1+1-2 = (before ++ IAC::after).length := by omega
  rw [escapeLoop,left,inserted_place]
  rw [if_pos (by simp only [List.length_append,List.length_cons]; omega)]
  split
  · rename_i missing
    rw [found] at missing
    contradiction
  · rename_i spot located
    rw [found] at located
    cases located
    congr 1
    · simp only [List.length_append]
      omega
    · simp only [List.length_append,List.length_cons]
      omega

/-- The escape pass from an IAC on: it doubles that one and all that follow, and
stores nothing beyond the end of what it leaves. -/
theorem escapeLoop_holds {buff : Buffer} {start : Int} {xs ys : List UInt8}
    (holds : Holds buff start (xs ++ IAC::ys)) :
    Holds (escapeLoop (start+xs.length) (ys.length+1) buff) start (xs ++ stuff IAC (IAC::ys)) ∧
    Block.Writes (fun i => start ≤ i ∧ i < start+(xs ++ stuff IAC (IAC::ys)).length) buff.mem
      (escapeLoop (start+xs.length) (ys.length+1) buff).mem ∧
    (escapeLoop (start+xs.length) (ys.length+1) buff).size = buff.size := by
  induction size : ys.length using Nat.strong_induction_on generalizing buff xs ys with
  | _ n ih =>
    subst size
    have inserted := inserted_holds holds
    have capacity := bfinsch_size buff (start+xs.length) IAC
    have stores : Block.Writes (fun i => start ≤ i ∧ i < start+(xs ++ stuff IAC (IAC::ys)).length)
        buff.mem (bfinsch buff (start+xs.length) IAC).2.mem := by
      apply (bfinsch_writes holds IAC).mono
      intro i inside
      have grown := stuff_length IAC ys
      simp only [stuff_marker,List.length_append,List.length_cons] at inside ⊢
      omega
    by_cases present : IAC ∈ ys
    · obtain ⟨before,after,rfl,absent⟩ := List.eq_append_cons_of_mem present
      rw [escapeLoop_next holds absent]
      have further : Holds (bfinsch buff (start+xs.length) IAC).2 start
          ((xs ++ [IAC,IAC] ++ before) ++ IAC::after) := by
        simpa only [List.append_assoc] using inserted
      have shorter : after.length < (before ++ IAC::after).length := by
        simp only [List.length_append,List.length_cons]
        omega
      have result : xs ++ [IAC,IAC] ++ before ++ stuff IAC (IAC::after) =
          xs ++ stuff IAC (IAC::(before ++ IAC::after)) := by
        rw [stuff_marker IAC (before ++ IAC::after),stuff_append,stuff_of_notMem absent]
        simp
      obtain ⟨content,writes,same⟩ := ih after.length shorter further rfl
      rw [result] at content writes
      exact ⟨content,stores.trans writes,same.trans capacity⟩
    · rw [escapeLoop_last holds present,stuff_marker,stuff_of_notMem present]
      rw [stuff_marker,stuff_of_notMem present] at stores
      exact ⟨bfinsch_holds holds IAC,stores,capacity⟩

theorem escapeIacChars_holds {buff : Buffer} {start : Int} {xs : List UInt8}
    (holds : Holds buff start xs) :
    Holds (escapeIacChars buff) start (stuff IAC xs) ∧
    Block.Writes (fun i => start ≤ i ∧ i < start+(stuff IAC xs).length) buff.mem
      (escapeIacChars buff).mem ∧ (escapeIacChars buff).size = buff.size := by
  have whole : Holds buff start ([] ++ xs) := holds
  simp only [escapeIacChars,bfPointToActivePortion,holds.starts,holds.counted]
  by_cases present : IAC ∈ xs
  · obtain ⟨before,after,rfl,absent⟩ := List.eq_append_cons_of_mem present
    have found := whole.search_first absent
    simp only [List.length_nil,Nat.cast_zero,add_zero] at found
    rw [found]
    have left : ((before ++ IAC::after).length : Int)-(start+before.length-start) =
        after.length+1 := by
      simp only [List.length_append,List.length_cons]
      omega
    dsimp only
    rw [left,stuff_append,stuff_of_notMem absent]
    exact escapeLoop_holds holds
  · have missing := whole.search_none present
    simp only [List.length_nil,Nat.cast_zero,add_zero] at missing
    rw [missing,stuff_of_notMem present]
    exact ⟨holds,Block.Writes.refl _ _,rfl⟩

theorem readSerial_moved (noquote : Bool) (reply : ReadReply) (buff : Buffer) :
    (readSerial noquote reply buff).moved = (readFromFdToBuffer reply buff).moved := by
  unfold readSerial
  dsimp only
  split_ifs <;> rfl

theorem readSerial_quiet (noquote : Bool) {reply : ReadReply} {buff : Buffer}
    (quiet : (readFromFdToBuffer reply buff).moved = []) :
    (readSerial noquote reply buff).buff = (readFromFdToBuffer reply buff).buff := by
  have silent := (readFromFdToBuffer_ret buff reply).not.mpr (not_not.mpr quiet)
  unfold readSerial
  dsimp only
  split_ifs <;> first | rfl | omega

theorem readSerial_unquoted (reply : ReadReply) (buff : Buffer) :
    (readSerial true reply buff).buff = (readFromFdToBuffer reply buff).buff := by
  unfold readSerial
  dsimp only
  split
  · rfl
  · split
    · split
      · rfl
      · rfl
    · rfl

theorem readSerial_fine (noquote : Bool) {reply : ReadReply} {buff : Buffer}
    (delivers : (readFromFdToBuffer reply buff).moved ≠ []) :
    (readSerial noquote reply buff).ret = 0 := by
  have positive := (readFromFdToBuffer_ret buff reply).mpr delivers
  unfold readSerial
  dsimp only
  rw [if_neg (by omega),if_neg (by omega)]

/-- With quoting on, a delivery leaves the escaped form of the old and the new
content together: what was left over is scanned again. -/
theorem readSerial_holds {buff : Buffer} {start : Int} {xs : List UInt8}
    (holds : Holds buff start xs) {reply : ReadReply}
    (delivers : (readFromFdToBuffer reply buff).moved ≠ []) :
    Holds (readSerial false reply buff).buff start
      (stuff IAC (xs ++ (readFromFdToBuffer reply buff).moved)) ∧
    Block.Writes (fun i => start ≤ i ∧
      i < start+(stuff IAC (xs ++ (readFromFdToBuffer reply buff).moved)).length) buff.mem
      (readSerial false reply buff).buff.mem ∧
    (readSerial false reply buff).buff.size = buff.size := by
  have arrived := readFromFdToBuffer_holds holds reply
  have positive := (readFromFdToBuffer_ret buff reply).mpr delivers
  have stores : Block.Writes (fun i => start ≤ i ∧
      i < start+(stuff IAC (xs ++ (readFromFdToBuffer reply buff).moved)).length) buff.mem
      (readFromFdToBuffer reply buff).buff.mem := by
    apply (readFromFdToBuffer_writes holds reply).mono
    intro i inside
    have grown := stuff_length IAC (xs ++ (readFromFdToBuffer reply buff).moved)
    omega
  unfold readSerial
  dsimp only
  rw [if_neg (by omega),if_neg (by omega)]
  simp only [Bool.not_false,if_true]
  cases gate : bfstrchr (readFromFdToBuffer reply buff).buff IAC with
  | none =>
    dsimp only
    rw [stuff_of_notMem (bfstrchr_none arrived gate)] at stores ⊢
    exact ⟨arrived,stores,readFromFdToBuffer_size buff reply⟩
  | some spot =>
    obtain ⟨escaped,writes,capacity⟩ := escapeIacChars_holds arrived
    exact ⟨escaped,stores.trans writes,capacity.trans (readFromFdToBuffer_size buff reply)⟩

theorem readSerial_readp {buff : Buffer} (valid : Valid buff) {data : List UInt8}
    (delivered : (readFromFdToBuffer (.bytes data) buff).moved = data) (some : data ≠ []) :
    (readSerial false (.bytes data) buff).buff.readp =
      buff.readp+data.length+(buff.content ++ data).count IAC := by
  have before := valid.holds.stops
  have delivers := delivered.trans_ne some
  have after := (readSerial_holds valid.holds delivers).1.stops
  have grown := stuff_length IAC (buff.content ++ data)
  rw [delivered] at after
  rw [List.length_append] at grown
  omega

/-- A read that escapes stays inside its allocation and inside the buffer exactly
when the free space behind `readp` also holds one byte per IAC, old or new. -/
theorem readSerial_inside_iff (buff : Buffer) (valid : Valid buff) (data : List UInt8)
    (within : (data.length : Int) ≤ calNumbytesToRead buff) :
    (Block.Writes (fun i => 0 ≤ i ∧ i < buff.size+1) buff.mem
        (readSerial false (.bytes data) buff).buff.mem ∧
      (readSerial false (.bytes data) buff).buff.readp ≤
        (readSerial false (.bytes data) buff).buff.tailp) ↔
    data = [] ∨ buff.readp+data.length+(buff.content ++ data).count IAC ≤ buff.size := by
  have delivered := readFromFdToBuffer_takes within
  have origin := valid.origin
  by_cases none : data = []
  · subst none
    have quiet := readSerial_quiet false delivered
    have holds := readFromFdToBuffer_holds valid.holds (.bytes [])
    have stores := readFromFdToBuffer_writes valid.holds (.bytes [])
    have capacity := readFromFdToBuffer_size buff (.bytes [])
    rw [delivered,List.append_nil] at holds stores
    have stops := holds.stops
    have tail := holds.tail
    have before := valid.holds.stops
    have bounded := valid.bounded
    have size := valid.tail
    rw [quiet]
    refine iff_of_true ⟨stores.mono ?_,by omega⟩ (Or.inl rfl)
    intro i inside
    omega
  · have delivers := delivered.trans_ne none
    obtain ⟨holds,stores,capacity⟩ := readSerial_holds valid.holds delivers
    have reach := readSerial_readp valid delivered none
    have stops := holds.stops
    have tail := holds.tail
    simp only [none,false_or]
    constructor
    · intro both
      obtain ⟨_,bounded⟩ := both
      omega
    · intro fits
      refine ⟨stores.mono ?_,by omega⟩
      intro i inside
      omega

/-- Three bytes, one of them IAC, into ten: room for the fourth is there. -/
theorem readSerial_inside_iff_ten :
    (Block.Writes (fun i => 0 ≤ i ∧ i < 11) (bfmalloc 10).mem
        (readSerial false (.bytes [65,255,66]) (bfmalloc 10)).buff.mem ∧
      (readSerial false (.bytes [65,255,66]) (bfmalloc 10)).buff.readp ≤
        (readSerial false (.bytes [65,255,66]) (bfmalloc 10)).buff.tailp) ↔
    ([65,255,66] : List UInt8) = [] ∨ (bfmalloc 10).readp+3+
      ((bfmalloc 10).content ++ [65,255,66]).count IAC ≤ 10 :=
  readSerial_inside_iff (bfmalloc 10) (bfmalloc_invariant 10).toValid [65,255,66] (by decide)

/-- A read that fills an empty buffer with IAC bytes escapes it to twice its size. -/
theorem readSerial_overruns :
    ¬ ∀ (buff : Buffer) (data : List UInt8), Valid buff →
      (data.length : Int) ≤ calNumbytesToRead buff →
      Block.Writes (fun i => 0 ≤ i ∧ i < buff.size+1) buff.mem
        (readSerial false (.bytes data) buff).buff.mem ∧
      (readSerial false (.bytes data) buff).buff.readp ≤
        (readSerial false (.bytes data) buff).buff.tailp := by
  intro always
  let data := List.replicate 4096 IAC
  have empty := bfmalloc_holds SIZE_BUFFER
  have valid := (bfmalloc_invariant SIZE_BUFFER).toValid
  have room : calNumbytesToRead (bfmalloc SIZE_BUFFER) = 4096 := by
    rw [calNumbytesToRead_eq empty,if_pos rfl,bfmalloc_size (by decide)]
    rfl
  have length : data.length = 4096 := List.length_replicate
  have within : (data.length : Int) ≤ calNumbytesToRead (bfmalloc SIZE_BUFFER) := by omega
  have delivered := readFromFdToBuffer_takes within
  have some : data ≠ [] := by
    intro none
    simp [none] at length
  have reach := readSerial_readp valid delivered some
  have doubled : ((bfmalloc SIZE_BUFFER).content ++ data).count IAC = 4096 := by
    rw [empty.content_eq,List.nil_append]
    exact List.count_replicate_self
  obtain ⟨holds,_,capacity⟩ := readSerial_holds valid.holds (delivered.trans_ne some)
  have bounded := (always _ data valid within).2
  have origin := empty.stops
  have tail := holds.tail
  have size : (bfmalloc SIZE_BUFFER).size = 4096 := bfmalloc_size (by decide)
  simp only [List.length_nil] at origin
  omega

inductive SerialMove
  | readSerial (reply : ReadReply)
  | writeSocket (sessionState : SessionState) (reply : WriteReply)

/-- The path with quoting on; `delivered` is what the serial line sent and
`accepted` what the socket took. -/
def serialStep (t : Traffic) : SerialMove → Traffic
  | .readSerial reply =>
    let result := readSerial false reply t.buff
    {t with buff := result.buff, delivered := t.delivered ++ result.moved}
  | .writeSocket sessionState reply =>
    let result := writeSocket sessionState reply t.buff
    {t with buff := result.buff, accepted := t.accepted ++ result.moved}

def EscapedOnce (t : Traffic) : Prop :=
  t.accepted ++ t.buff.content = stuff IAC t.delivered

def Stays (t : Traffic) (move : SerialMove) : Prop :=
  (serialStep t move).buff.readp ≤ (serialStep t move).buff.tailp

def FindsNoIac (t : Traffic) : SerialMove → Prop
  | .readSerial reply => (readFromFdToBuffer reply t.buff).moved ≠ [] → IAC ∉ t.buff.content
  | .writeSocket _ _ => True

theorem writeSocket_invariant {b : Buffer} (invariant : Invariant b) (state : SessionState)
    (reply : WriteReply) : Invariant (writeSocket state reply b).buff ∧
      b.content = (writeSocket state reply b).moved ++ (writeSocket state reply b).buff.content := by
  unfold writeSocket
  dsimp only
  split_ifs
  · exact ⟨invariant,rfl⟩
  · exact invariant.write reply
  · exact invariant.write reply

theorem serialStep_invariant (t : Traffic) (move : SerialMove) (invariant : Invariant t.buff)
    (stays : Stays t move) : Invariant (serialStep t move).buff := by
  cases move with
  | writeSocket state reply => exact (writeSocket_invariant invariant state reply).1
  | readSerial reply =>
    simp only [serialStep,Stays] at stays ⊢
    by_cases quiet : (readFromFdToBuffer reply t.buff).moved = []
    · rw [readSerial_quiet false quiet]
      exact (invariant.read reply).1
    · obtain ⟨holds,_,capacity⟩ := readSerial_holds invariant.toValid.holds quiet
      have stops := holds.stops
      have tail := holds.tail
      apply holds.invariant invariant.origin (by omega)
      intro none
      have grown := stuff_length IAC (t.buff.content ++ (readFromFdToBuffer reply t.buff).moved)
      have positive := List.length_pos_iff.mpr quiet
      rw [none,List.length_append] at grown
      simp only [List.length_nil] at grown
      omega

/-- One step keeps the law exactly when it finds no waiting IAC: escaping again
what was escaped before is what breaks it. -/
theorem escapedOnce_step (t : Traffic) (move : SerialMove) (invariant : Invariant t.buff)
    (once : EscapedOnce t) : EscapedOnce (serialStep t move) ↔ FindsNoIac t move := by
  cases move with
  | writeSocket state reply =>
    obtain ⟨_,split⟩ := writeSocket_invariant invariant state reply
    refine iff_of_true ?_ trivial
    simp only [EscapedOnce,serialStep]
    rw [List.append_assoc,← split]
    exact once
  | readSerial reply =>
    simp only [EscapedOnce,serialStep,FindsNoIac,readSerial_moved]
    by_cases quiet : (readFromFdToBuffer reply t.buff).moved = []
    · refine iff_of_true ?_ (fun delivers => absurd quiet delivers)
      rw [readSerial_quiet false quiet,(invariant.read reply).2,quiet,List.append_nil,
        List.append_nil]
      exact once
    · have holds := (readSerial_holds invariant.toValid.holds quiet).1
      rw [holds.content_eq,stuff_append,stuff_append,← once,List.append_assoc,
        List.append_cancel_left_eq,List.append_cancel_right_eq,stuff_eq_self]
      exact ⟨fun absent _ => absent,fun absent => absent quiet⟩

/-- In a run whose content stays within the buffer every IAC is escaped exactly
once throughout if and only if no delivery finds an IAC still waiting. -/
theorem escapedOnce_iff_findsNoIac (size : Int) (moves : List SerialMove)
    (stays : Machine.Along serialStep Stays (Traffic.start size) moves) :
    Machine.Throughout serialStep EscapedOnce (Traffic.start size) moves ↔
      Machine.Along serialStep FindsNoIac (Traffic.start size) moves := by
  apply Machine.throughout_iff_along (fun t => Invariant t.buff) EscapedOnce Stays FindsNoIac
    serialStep_invariant (fun t move invariant once _ => escapedOnce_step t move invariant once)
    (bfmalloc_invariant size) _ stays
  simp [EscapedOnce,Traffic.start,(bfmalloc_holds size).content_eq]

/-- A short write that takes the whole doubled IAC, then more input. -/
theorem escapedOnce_iff_findsNoIac_ten :
    Machine.Throughout serialStep EscapedOnce (Traffic.start 10)
      [.readSerial (.bytes [65,255,66]),.writeSocket .RESUME (.upTo 3),
        .readSerial (.bytes [255])] ↔
    Machine.Along serialStep FindsNoIac (Traffic.start 10)
      [.readSerial (.bytes [65,255,66]),.writeSocket .RESUME (.upTo 3),
        .readSerial (.bytes [255])] :=
  escapedOnce_iff_findsNoIac 10 _
    ⟨by unfold Stays; decide +kernel,by unfold Stays; decide +kernel,
      by unfold Stays; decide +kernel,trivial⟩

/-- A short write that cuts a doubled IAC in the middle: the second half is
doubled again with the next read. -/
theorem split_iac_escaped_twice :
    ¬ ∀ (size : Int) (moves : List SerialMove),
      Machine.Along serialStep Stays (Traffic.start size) moves →
      EscapedOnce (Machine.run serialStep (Traffic.start size) moves) := by
  intro always
  have law := always 10 [.readSerial (.bytes [255]),.writeSocket .RESUME (.upTo 1),
    .readSerial (.bytes [65])] ⟨by unfold Stays; decide +kernel,by unfold Stays; decide +kernel,
      by unfold Stays; decide +kernel,trivial⟩
  unfold EscapedOnce at law
  revert law
  decide +kernel

end SerialIp

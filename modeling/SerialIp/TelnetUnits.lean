import SerialIp.BufferContent
import SerialIp.TelnetEffects
import SerialIp.TelnetScan

/-! The complete commands a client can send and what the scan makes of them.
`Reading` is the invariant of the scan: the content splits at `iac` into what is
already decoded and what is left. Every command is one step of it. -/
namespace SerialIp
open Library Buffer

/-- A data byte, a doubled IAC, a command of two or three bytes, or a suboption
up to its first SE. -/
inductive TelnetUnit
  | data (byte : UInt8) (plain : byte ≠ IAC)
  | quoted
  | command (optcode : UInt8) (other : optcode ∉ [IAC,WILL,WONT,DO,DONT,SB])
  | negotiation (optcode : OptCode) (option : UInt8)
  | suboption (option : UInt8) (body : List UInt8) (framed : SE ∉ body)

namespace TelnetUnit

def encode : TelnetUnit → List UInt8
  | data byte _ => [byte]
  | quoted => [IAC,IAC]
  | command optcode _ => [IAC,optcode]
  | negotiation optcode option => [IAC,optcode.byte,option]
  | suboption option body _ => IAC::SB::option::(body ++ [SE])

def decoded : TelnetUnit → List UInt8
  | data byte _ => [byte]
  | quoted => [IAC]
  | _ => []

def negotiated : TelnetUnit → List (OptCode × UInt8)
  | negotiation optcode option => [(optcode,option)]
  | _ => []

def Simple : TelnetUnit → Prop
  | suboption _ _ _ => False
  | _ => True

/-- What the unit does to the session; of a suboption only that it makes no call. -/
def Effect (unit : TelnetUnit) (s t : Session) : Prop :=
  match unit with
  | suboption _ _ _ => calls t = calls s
  | unit => t = respondAll unit.negotiated s

end TelnetUnit

structure Reading (st : Scan) (done left : List UInt8) : Prop where
  holds : ∃ start, Holds st.buff start (done ++ left) ∧ (left ≠ [] → st.iac = start+done.length)
  size : st.size = left.length

theorem Reading.suffix {st : Scan} {done left : List UInt8} (reading : Reading st done left) :
    st.buff.mem.read st.iac left.length = left := by
  obtain ⟨⟨start,holds,place⟩,_⟩ := reading
  by_cases none : left = []
  · rw [none]
    rfl
  · rw [place none]
    exact holds.suffix

theorem Reading.content {st : Scan} {done : List UInt8} (reading : Reading st done []) :
    st.buff.content = done := by
  obtain ⟨⟨start,holds,_⟩,_⟩ := reading
  rw [List.append_nil] at holds
  exact holds.content_eq

theorem Reading.drop {st : Scan} {done gone left : List UInt8}
    (reading : Reading st done (gone ++ left)) (some : gone ≠ []) :
    Reading (st.drop gone.length) done left := by
  obtain ⟨⟨start,holds,place⟩,size⟩ := reading
  have positive : 0 < gone.length := List.length_pos_iff.mpr some
  have here := place (by simp [some])
  have count : (st.drop gone.length).size = left.length := by
    unfold Scan.drop
    rw [List.length_append] at size
    dsimp only
    omega
  by_cases part : gone.length < (done ++ (gone ++ left)).length
  · obtain ⟨_,removed⟩ := bfrmstr_part holds part
    rw [← here] at removed
    exact ⟨⟨start,removed,fun _ => here⟩,count⟩
  · simp only [List.length_append] at part
    have first : done = [] := List.length_eq_zero_iff.mp (by omega)
    have last : left = [] := List.length_eq_zero_iff.mp (by omega)
    subst first last
    have all : bfrmstr st.buff st.iac gone.length = ((gone.length : Int),bfinit st.buff) := by
      apply bfrmstr_all holds
      · rw [here]
        simp
      · simp
    refine ⟨⟨0,?_,fun absurd => (absurd rfl).elim⟩,count⟩
    unfold Scan.drop
    rw [all]
    exact bfinit_holds st.buff

/-- What no removal from the buffer can break survives a command. -/
theorem scanCommand_buffer {holds : Buffer → Prop}
    (remove : ∀ b ptr nbytes, 0 ≤ nbytes → holds b → holds (bfrmstr b ptr nbytes).2) {st : Scan}
    (start : holds st.buff) : holds (scanCommand st).buff := by
  have drop (st : Scan) (start : holds st.buff) {nbytes : Int} (given : 0 ≤ nbytes) :
      holds (st.drop nbytes).buff := remove st.buff st.iac nbytes given start
  unfold scanCommand
  dsimp only
  split
  · exact remove st.buff st.iac 1 (by decide) start
  · split
    · exact drop _ start (by decide)
    · split
      · split
        · rename_i se found
          have place := mystrchr_bounds found
          exact drop _ start (by omega)
        · exact start
      · exact drop _ start (by decide)

/-- The end of an iteration: the search for the next IAC. -/
def scanNext (st : Scan) : Gateway :=
  if st.size < 2 then st.toGateway
  else
    match mystrchr st.buff.mem st.iac IAC st.size with
    | none => st.toGateway
    | some iac =>
      let size := st.size-(iac-st.iac)
      if size < 2 then st.toGateway else scanLoop {st with iac := iac, size := size}

theorem scanLoop_eq (st : Scan) : scanLoop st = scanNext (scanCommand st) := by
  rw [scanLoop]
  unfold scanNext
  dsimp only
  split
  · rfl
  · split
    · rename_i missing
      rw [missing]
    · rename_i iac found
      rw [found]

/-- The rule for what every command of a scan keeps. -/
theorem scanLoop_keeps (holds : Gateway → Prop)
    (kept : ∀ st : Scan, holds st.toGateway → holds (scanCommand st).toGateway) (st : Scan)
    (start : holds st.toGateway) : holds (scanLoop st) := by
  induction st using scanLoop.induct with
  | case1 st next short =>
    rw [scanLoop,if_pos short]
    exact kept st start
  | case2 st next enough missing =>
    rw [scanLoop_eq,scanNext,if_neg enough,missing]
    exact kept st start
  | case3 st next enough iac found size short =>
    rw [scanLoop_eq,scanNext,if_neg enough,found]
    dsimp only
    rw [if_pos short]
    exact kept st start
  | case4 st next enough iac found size long ih =>
    rw [scanLoop_eq,scanNext,if_neg enough,found]
    dsimp only
    rw [if_neg long]
    exact ih (kept st start)

theorem processTelnetOptions_keeps (holds : Gateway → Prop)
    (kept : ∀ st : Scan, holds st.toGateway → holds (scanCommand st).toGateway) {g : Gateway}
    (start : holds g) : holds (processTelnetOptions g) := by
  unfold processTelnetOptions
  dsimp only
  split
  · exact start
  · split
    · exact start
    · exact scanLoop_keeps holds kept _ start

theorem processTelnetOptions_buffer (holds : Buffer → Prop)
    (remove : ∀ b ptr nbytes, 0 ≤ nbytes → holds b → holds (bfrmstr b ptr nbytes).2) {g : Gateway}
    (start : holds g.buff) : holds (processTelnetOptions g).buff :=
  processTelnetOptions_keeps (fun g => holds g.buff) (fun _ => scanCommand_buffer remove) start

theorem processTelnetOptions_capacity (g : Gateway) :
    (processTelnetOptions g).buff.size = g.buff.size := by
  have remove (b : Buffer) (ptr nbytes : Int) (_ : 0 ≤ nbytes) (same : b.size = g.buff.size) :
      (bfrmstr b ptr nbytes).2.size = g.buff.size := (bfrmstr_size b ptr nbytes).trans same
  exact processTelnetOptions_buffer (fun b => b.size = g.buff.size) remove rfl

theorem processTelnetOptions_eq (g : Gateway) :
    processTelnetOptions g = scanNext {g with iac := g.buff.writep, size := g.buff.nbuffered} := by
  unfold processTelnetOptions scanNext bfPointToActivePortion
  dsimp only
  cases found : mystrchr g.buff.mem g.buff.writep IAC g.buff.nbuffered with
  | none =>
    dsimp only
    split
    · rfl
    · rfl
  | some iac =>
    have place := mystrchr_bounds found
    dsimp only
    by_cases short : g.buff.nbuffered < 2
    · rw [if_pos (by omega),if_pos short]
    · rw [if_neg short]

theorem scanNext_none {st : Scan} {done left : List UInt8} (reading : Reading st done left)
    (absent : IAC ∉ left) : scanNext st = st.toGateway := by
  have content := reading.suffix
  rw [← Int.toNat_natCast left.length,← reading.size] at content
  unfold scanNext
  rw [mystrchr_none (by rw [content]; exact absent)]
  split
  · rfl
  · rfl

theorem scanNext_first {st : Scan} {done before after : List UInt8}
    (reading : Reading st done (before ++ IAC::after)) (absent : IAC ∉ before) :
    scanNext st = if after.length+1 < 2 then st.toGateway
      else scanLoop {st with iac := st.iac+before.length, size := after.length+1} := by
  have content := reading.suffix
  have size := reading.size
  rw [← Int.toNat_natCast (before ++ IAC::after).length,← size] at content
  have found := mystrchr_first content absent
  have rest : st.size-(st.iac+before.length-st.iac) = after.length+1 := by
    rw [size]
    simp only [List.length_append,List.length_cons]
    omega
  unfold scanNext
  rw [found]
  dsimp only
  rw [rest]
  split
  · rename_i short
    rw [if_pos (by simp only [List.length_append,List.length_cons] at size; omega)]
  · split
    · rename_i last
      rw [if_pos (by omega)]
    · rename_i enough
      rw [if_neg (by omega)]

theorem scanNext_data {st : Scan} {done left : List UInt8} {byte : UInt8}
    (reading : Reading st done (byte::left)) (plain : byte ≠ IAC) :
    ∃ next, scanNext st = scanNext next ∧ Reading next (done ++ [byte]) left ∧
      next.session = st.session := by
  obtain ⟨⟨start,holds,place⟩,size⟩ := reading
  have reading : Reading st done (byte::left) := ⟨⟨start,holds,place⟩,size⟩
  have here := place (by simp)
  have advanced : Reading {st with iac := st.iac+1, size := st.size-1} (done ++ [byte]) left := by
    refine ⟨⟨start,by simpa using holds,?_⟩,?_⟩
    · intro _
      dsimp only
      rw [here,List.length_append,List.length_cons,List.length_nil]
      omega
    · dsimp only
      rw [size,List.length_cons]
      omega
  refine ⟨_,?_,advanced,rfl⟩
  by_cases present : IAC ∈ left
  · obtain ⟨before,after,rfl,absent⟩ := List.eq_append_cons_of_mem present
    have later : Reading st done ((byte::before) ++ IAC::after) := reading
    have skipped : IAC ∉ byte::before := by
      rw [List.mem_cons,not_or]
      exact ⟨Ne.symm plain,absent⟩
    have same : st.iac+((byte::before).length : Int) = st.iac+1+before.length := by
      rw [List.length_cons]
      omega
    rw [scanNext_first later skipped,scanNext_first advanced absent,same]
  · have missing : IAC ∉ byte::left := by
      rw [List.mem_cons,not_or]
      exact ⟨Ne.symm plain,present⟩
    rw [scanNext_none reading missing,scanNext_none advanced present]

theorem scanNext_command {st : Scan} {done left : List UInt8} {optcode : UInt8}
    (reading : Reading st done (IAC::optcode::left)) : scanNext st = scanNext (scanCommand st) := by
  have first : Reading st done ([] ++ IAC::optcode::left) := reading
  have size : ((optcode::left).length : Int)+1 = st.size := by
    rw [reading.size]
    simp only [List.length_cons]
    omega
  rw [scanNext_first first (by simp),if_neg (by simp)]
  rw [size,List.length_nil,Nat.cast_zero,add_zero,scanLoop_eq]

private theorem Reading.command_cell {st : Scan} {done left : List UInt8} {first optcode : UInt8}
    (reading : Reading st done (first::optcode::left)) : st.buff.mem.cell (st.iac+1) = optcode := by
  have content : st.buff.mem.read st.iac (first::optcode::left).length = [first] ++ optcode::left :=
    reading.suffix
  exact Block.cell_of_read st.buff.mem content

private theorem Reading.option_cell {st : Scan} {done left : List UInt8}
    {first optcode option : UInt8} (reading : Reading st done (first::optcode::option::left)) :
    st.buff.mem.cell (st.iac+2) = option := by
  have content : st.buff.mem.read st.iac (first::optcode::option::left).length =
      [first,optcode] ++ option::left := reading.suffix
  exact Block.cell_of_read st.buff.mem content

theorem scanCommand_quoted {st : Scan} {done left : List UInt8}
    (reading : Reading st done (IAC::IAC::left)) :
    Reading (scanCommand st) (done ++ [IAC]) left ∧ (scanCommand st).session = st.session := by
  have second := reading.command_cell
  obtain ⟨⟨start,holds,place⟩,size⟩ := reading
  have here := place (by simp)
  have split : Holds st.buff start (done ++ ([IAC] ++ IAC::left)) := holds
  obtain ⟨_,removed⟩ := bfrmstr_part split (by simp only [List.length_append,List.length_cons]; omega)
  rw [← here] at removed
  unfold scanCommand
  rw [if_pos second]
  refine ⟨⟨⟨start,by simpa using removed,?_⟩,?_⟩,rfl⟩
  · intro _
    dsimp only
    rw [here,List.length_append,List.length_cons,List.length_nil]
    omega
  · dsimp only
    simp only [size,List.length_cons]
    omega

theorem scanCommand_command {st : Scan} {done left : List UInt8} {optcode : UInt8}
    (reading : Reading st done (IAC::optcode::left))
    (other : optcode ∉ [IAC,WILL,WONT,DO,DONT,SB]) :
    Reading (scanCommand st) done left ∧ (scanCommand st).session = st.session := by
  simp only [List.mem_cons,List.not_mem_nil,or_false,not_or] at other
  obtain ⟨notIac,notWill,notWont,notDo,notDont,notSb⟩ := other
  have unknown : OptCode.ofByte? optcode = none := by
    simp [OptCode.ofByte?,notWill,notWont,notDo,notDont]
  have split : Reading st done ([IAC,optcode] ++ left) := reading
  have dropped := split.drop (by simp)
  have skip : scanCommand st = st.drop 2 := by
    unfold scanCommand
    dsimp only
    rw [reading.command_cell,if_neg notIac,unknown]
    exact if_neg notSb
  rw [skip]
  exact ⟨dropped,rfl⟩

theorem scanCommand_negotiation {st : Scan} {done left : List UInt8} {optcode : OptCode}
    {option : UInt8} (reading : Reading st done (IAC::optcode.byte::option::left)) :
    Reading (scanCommand st) done left ∧
      (scanCommand st).session = (respondTelnetOption optcode option st.session).2 := by
  have notIac : optcode.byte ≠ IAC := by
    cases optcode <;> decide
  have answered : Reading {st with session := (respondTelnetOption optcode option st.session).2}
      done ([IAC,optcode.byte,option] ++ left) := ⟨reading.holds,reading.size⟩
  have dropped := answered.drop (by simp)
  have answer : scanCommand st =
      Scan.drop {st with session := (respondTelnetOption optcode option st.session).2} 3 := by
    unfold scanCommand
    dsimp only
    rw [reading.command_cell,reading.option_cell,if_neg notIac,OptCode.ofByte?_byte]
  rw [answer]
  exact ⟨dropped,rfl⟩

theorem scanCommand_suboption {st : Scan} {done body left : List UInt8} {option : UInt8}
    (reading : Reading st done (IAC::SB::option::(body ++ SE::left))) (framed : SE ∉ body) :
    Reading (scanCommand st) done left ∧ (scanCommand st).session = answerSuboption st option := by
  have answered : Reading {st with session := answerSuboption st option} done
      ((IAC::SB::option::(body ++ [SE])) ++ left) := by
    refine ⟨?_,?_⟩
    · simpa using reading.holds
    · simpa using reading.size
  have dropped := answered.drop (by simp)
  have found : mystrchr st.buff.mem (st.iac+3) SE (st.size-3) = some (st.iac+3+body.length) := by
    have size : (st.size-3).toNat = (body ++ SE::left).length := by
      rw [reading.size]
      simp only [List.length_cons]
      omega
    have whole : st.buff.mem.read st.iac (IAC::SB::option::(body ++ SE::left)).length =
        [IAC,SB,option] ++ (body ++ SE::left) := reading.suffix
    have content : st.buff.mem.read (st.iac+3) (body ++ SE::left).length = body ++ SE::left :=
      (Block.read_split st.buff.mem whole).2
    rw [← size] at content
    exact mystrchr_first content framed
  have answer : scanCommand st = Scan.drop {st with session := answerSuboption st option}
      (IAC::SB::option::(body ++ [SE])).length := by
    have count : st.iac+3+body.length-st.iac+1 =
        ((IAC::SB::option::(body ++ [SE])).length : Int) := by
      simp only [List.length_cons,List.length_append,List.length_nil]
      omega
    unfold scanCommand
    dsimp only
    rw [reading.command_cell,if_neg (by decide),reading.option_cell,found,← count]
    rfl
  rw [answer]
  exact ⟨dropped,rfl⟩

theorem answerSuboption_calls (st : Scan) (option : UInt8) :
    calls (answerSuboption st option) = calls st.session := by
  unfold answerSuboption
  split
  · exact processTelnetCpcSuboption_calls _ _ _ _
  · rfl

/-- One unit at the place of the scan: decoded, answered, and the scan goes on
behind it. -/
theorem scanNext_unit {st : Scan} {done left : List UInt8} (unit : TelnetUnit)
    (reading : Reading st done (unit.encode ++ left)) :
    ∃ next, scanNext st = scanNext next ∧ Reading next (done ++ unit.decoded) left ∧
      unit.Effect st.session next.session := by
  cases unit with
  | data byte plain => exact scanNext_data reading plain
  | quoted =>
    obtain ⟨read,same⟩ := scanCommand_quoted reading
    exact ⟨_,scanNext_command reading,read,same⟩
  | command optcode other =>
    obtain ⟨read,same⟩ := scanCommand_command reading other
    exact ⟨_,scanNext_command reading,by simpa [TelnetUnit.decoded] using read,same⟩
  | negotiation optcode option =>
    obtain ⟨read,answered⟩ := scanCommand_negotiation reading
    exact ⟨_,scanNext_command reading,by simpa [TelnetUnit.decoded] using read,answered⟩
  | suboption option body framed =>
    have whole : Reading st done (IAC::SB::option::(body ++ SE::left)) := by
      simpa [TelnetUnit.encode] using reading
    obtain ⟨read,answered⟩ := scanCommand_suboption whole framed
    refine ⟨_,scanNext_command whole,by simpa [TelnetUnit.decoded] using read,?_⟩
    unfold TelnetUnit.Effect
    rw [answered]
    exact answerSuboption_calls st option

def Effects : List TelnetUnit → Session → Session → Prop
  | [],s,t => t = s
  | unit::units,s,t => ∃ next, unit.Effect s next ∧ Effects units next t

theorem scanNext_units {st : Scan} {done left : List UInt8} (units : List TelnetUnit)
    (reading : Reading st done (units.flatMap TelnetUnit.encode ++ left)) :
    ∃ next, scanNext st = scanNext next ∧
      Reading next (done ++ units.flatMap TelnetUnit.decoded) left ∧
      Effects units st.session next.session := by
  induction units generalizing st done with
  | nil => exact ⟨st,rfl,by simpa using reading,rfl⟩
  | cons unit units ih =>
    rw [List.flatMap_cons,List.append_assoc] at reading
    obtain ⟨next,step,further,effect⟩ := scanNext_unit unit reading
    obtain ⟨last,steps,read,effects⟩ := ih further
    refine ⟨last,step.trans steps,?_,next.session,effect,effects⟩
    rw [List.flatMap_cons,← List.append_assoc]
    exact read

theorem Effects.calls {units : List TelnetUnit} {s t : Session} (effects : Effects units s t) :
    calls t = calls s ++ units.flatMap TelnetUnit.negotiated := by
  induction units generalizing s with
  | nil =>
    rw [effects,List.flatMap_nil,List.append_nil]
  | cons unit units ih =>
    obtain ⟨next,effect,effects⟩ := effects
    have first : SerialIp.calls next = SerialIp.calls s ++ unit.negotiated := by
      cases unit with
      | negotiation optcode option =>
        rw [effect]
        exact respondTelnetOption_calls optcode option s
      | suboption option body framed =>
        rw [effect]
        exact (List.append_nil _).symm
      | data byte plain | quoted | command optcode other =>
        rw [effect]
        exact (List.append_nil _).symm
    rw [ih effects,first,List.flatMap_cons,List.append_assoc]

/-- Without suboptions the calls are all that happens to the session. -/
theorem Effects.simple {units : List TelnetUnit} {s t : Session} (effects : Effects units s t)
    (simple : ∀ unit ∈ units, unit.Simple) :
    t = respondAll (units.flatMap TelnetUnit.negotiated) s := by
  induction units generalizing s with
  | nil => exact effects
  | cons unit units ih =>
    obtain ⟨next,effect,effects⟩ := effects
    have first : next = respondAll unit.negotiated s := by
      cases unit with
      | suboption option body framed => exact (simple _ List.mem_cons_self).elim
      | data byte plain | quoted | command optcode other | negotiation optcode option => exact effect
    rw [ih effects (fun unit member => simple unit (List.mem_cons_of_mem _ member)),first,
      List.flatMap_cons,respondAll,respondAll,respondAll,List.foldl_append]

theorem processTelnetOptions_holds {g : Gateway} {start : Int} {units : List TelnetUnit}
    (holds : Holds g.buff start (units.flatMap TelnetUnit.encode)) :
    (∃ origin, Holds (processTelnetOptions g).buff origin (units.flatMap TelnetUnit.decoded)) ∧
      Effects units g.session (processTelnetOptions g).session := by
  have reading : Reading {g with iac := g.buff.writep, size := g.buff.nbuffered} []
      (units.flatMap TelnetUnit.encode ++ []) := by
    refine ⟨⟨start,by simpa using holds,?_⟩,by simpa using holds.counted⟩
    intro _
    simpa using holds.starts
  obtain ⟨next,scan,read,effects⟩ := scanNext_units units reading
  rw [processTelnetOptions_eq,scan,scanNext_none read (by simp)]
  obtain ⟨⟨origin,content,_⟩,_⟩ := read
  exact ⟨⟨origin,by simpa using content⟩,effects⟩

end SerialIp

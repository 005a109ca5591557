import SerialIp.BufferRuns
import SerialIp.RemoteControl

/-! Where the scan for telnet commands reads and writes. The offsets that each part
looks at are listed beside the part, and the scan is carried by one invariant: as long
as two bytes are left, `iac` and `size` are in step with the buffer under them. -/
namespace SerialIp
open Library Buffer

def bfrmstrReads (b : Buffer) (ptr nbytes : Int) : List Int :=
  if b.writep ≤ ptr ∧ ptr ≤ b.readp then
    if nbytes ≥ b.nbuffered then []
    else
      let nbytes := if nbytes > b.readp-ptr then b.readp-ptr else nbytes
      Block.span (ptr+nbytes) (b.readp-(ptr+nbytes)).toNat
  else []

/-- What process_telnet_cpc_suboption looks at in the block of `optstr`. -/
def suboptionReads (mem : Block UInt8) (optstr optlen : Int) : List Int :=
  if optlen < 3 then []
  else
    optstr::mystrchrReads mem (optstr+1) SE (optlen-1) ++
      match mystrchr mem (optstr+1) SE (optlen-1) with
      | none => []
      | some se =>
        (se-1)::if mem.cell (se-1) ≠ IAC then []
          else
            let len := se-1-(optstr+1)
            let len := if len ≥ MAX_TELNET_CPC_COMMAND_LEN then MAX_TELNET_CPC_COMMAND_LEN-1
              else len
            Block.span (optstr+1) len.toNat

def answerSuboptionReads (st : Scan) (option : UInt8) : List Int :=
  if option = TELOPT_COM_PORT_OPTION ∧ telnetClientOptionIsEnabled option st.session then
    suboptionReads st.buff.mem (st.iac+3) (st.size-3)
  else []

/-- What the switch of the loop looks at. -/
def commandReads (st : Scan) : List Int :=
  let optcode := st.buff.mem.cell (st.iac+1)
  (st.iac+1)::
    if optcode = IAC then bfrmstrReads st.buff st.iac 1
    else match OptCode.ofByte? optcode with
    | some _ => (st.iac+2)::bfrmstrReads st.buff st.iac 3
    | none =>
      if optcode = SB then
        let option := st.buff.mem.cell (st.iac+2)
        (st.iac+2)::answerSuboptionReads st option ++
          mystrchrReads st.buff.mem (st.iac+3) SE (st.size-3) ++
          match mystrchr st.buff.mem (st.iac+3) SE (st.size-3) with
          | some se => bfrmstrReads st.buff st.iac (se-st.iac+1)
          | none => []
      else bfrmstrReads st.buff st.iac 2

/-- What the search at the end of an iteration looks at. -/
def searchReads (st : Scan) : List Int :=
  if st.size < 2 then [] else mystrchrReads st.buff.mem st.iac IAC st.size

/-- The scan and the buffer under it are in step while there may be a command left. -/
structure InStep (st : Scan) : Prop where
  invariant : Invariant st.buff
  origin : 2 ≤ st.size → st.buff.writep ≤ st.iac
  stops : 2 ≤ st.size → st.iac+st.size = st.buff.readp

theorem bfrmstrReads_bounds {b : Buffer} (valid : Valid b) {ptr nbytes i : Int}
    (given : 0 ≤ nbytes) (member : i ∈ bfrmstrReads b ptr nbytes) : 0 ≤ i ∧ i ≤ b.readp := by
  have origin := valid.origin
  unfold bfrmstrReads at member
  dsimp only at member
  split_ifs at member with inside all clamped
  · exact absurd member List.not_mem_nil
  · rw [Block.mem_span] at member
    omega
  · rw [Block.mem_span] at member
    omega
  · exact absurd member List.not_mem_nil

theorem suboptionReads_bounds {mem : Block UInt8} {optstr optlen i : Int}
    (member : i ∈ suboptionReads mem optstr optlen) : optstr ≤ i ∧ i < optstr+optlen := by
  unfold suboptionReads at member
  split at member
  · exact absurd member List.not_mem_nil
  · rcases List.mem_append.mp member with early | late
    · rcases List.mem_cons.mp early with rfl | searched
      · omega
      · have bounds := mystrchrReads_bounds searched
        omega
    · split at late
      · exact absurd late List.not_mem_nil
      · rename_i se found
        have place := mystrchr_bounds found
        rcases List.mem_cons.mp late with rfl | copied
        · omega
        · dsimp only at copied
          split at copied
          · exact absurd copied List.not_mem_nil
          · rw [Block.mem_span] at copied
            split_ifs at copied
            · omega
            · omega

theorem answerSuboptionReads_bounds {st : Scan} {option : UInt8} {i : Int}
    (member : i ∈ answerSuboptionReads st option) : st.iac+3 ≤ i ∧ i < st.iac+st.size := by
  unfold answerSuboptionReads at member
  split at member
  · have bounds := suboptionReads_bounds member
    omega
  · exact absurd member List.not_mem_nil

/-- The option byte may lie right behind the content, at `readp`; nothing is read
beyond that. -/
theorem commandReads_bounds {st : Scan} (inStep : InStep st) (enough : 2 ≤ st.size) {i : Int}
    (member : i ∈ commandReads st) : 0 ≤ i ∧ i ≤ st.buff.readp := by
  have valid := inStep.invariant.toValid
  have origin := valid.origin
  have start := inStep.origin enough
  have stops := inStep.stops enough
  unfold commandReads at member
  rcases List.mem_cons.mp member with rfl | member
  · omega
  · dsimp only at member
    split at member
    · exact bfrmstrReads_bounds valid (by decide) member
    · split at member
      · rcases List.mem_cons.mp member with rfl | removed
        · omega
        · exact bfrmstrReads_bounds valid (by decide) removed
      · split at member
        · rcases List.mem_append.mp member with early | removed
          · rcases List.mem_append.mp early with first | searched
            · rcases List.mem_cons.mp first with rfl | answered
              · omega
              · have bounds := answerSuboptionReads_bounds answered
                omega
            · have bounds := mystrchrReads_bounds searched
              omega
          · split at removed
            · rename_i se found
              have place := mystrchr_bounds found
              exact bfrmstrReads_bounds valid (by omega) removed
            · exact absurd removed List.not_mem_nil
        · exact bfrmstrReads_bounds valid (by decide) member

theorem searchReads_bounds {st : Scan} (inStep : InStep st) {i : Int}
    (member : i ∈ searchReads st) : 0 ≤ i ∧ i < st.buff.readp := by
  have origin := inStep.invariant.origin
  unfold searchReads at member
  split at member
  · exact absurd member List.not_mem_nil
  · rename_i enough
    have start := inStep.origin (not_lt.mp enough)
    have stops := inStep.stops (not_lt.mp enough)
    have bounds := mystrchrReads_bounds member
    omega

theorem bfrmstr_ends {b : Buffer} {ptr nbytes : Int} (inside : b.writep ≤ ptr ∧ ptr ≤ b.readp)
    (part : nbytes < b.nbuffered) (within : nbytes ≤ b.readp-ptr) :
    (bfrmstr b ptr nbytes).2.readp = b.readp-nbytes ∧ (bfrmstr b ptr nbytes).2.writep = b.writep := by
  unfold bfrmstr
  rw [if_pos inside,if_neg (not_le.mpr part)]
  dsimp only
  rw [if_neg (not_lt.mpr within)]
  refine ⟨?_,rfl⟩
  simp only [bufferReadpointerPosition]
  omega

theorem InStep.drop {st : Scan} (inStep : InStep st) (enough : 2 ≤ st.size) {nbytes : Int}
    (given : 0 ≤ nbytes) : InStep (st.drop nbytes) := by
  have start := inStep.origin enough
  have stops := inStep.stops enough
  have counted := inStep.invariant.counted
  -- while two bytes are left behind the removed ones, the removal is neither clipped nor total
  have ends (left : 2 ≤ st.size-nbytes) :
      (bfrmstr st.buff st.iac nbytes).2.readp = st.buff.readp-nbytes ∧
        (bfrmstr st.buff st.iac nbytes).2.writep = st.buff.writep :=
    bfrmstr_ends ⟨start,by omega⟩ (by omega) (by omega)
  refine ⟨inStep.invariant.remove given,?_,?_⟩
  · intro left
    change (bfrmstr st.buff st.iac nbytes).2.writep ≤ st.iac
    rw [(ends left).2]
    exact start
  · intro left
    change st.iac+(st.size-nbytes) = (bfrmstr st.buff st.iac nbytes).2.readp
    rw [(ends left).1]
    omega

/-- Every command keeps the scan in step, whatever it does to the session. -/
theorem scanCommand_inStep {st : Scan} (inStep : InStep st) (enough : 2 ≤ st.size) :
    InStep (scanCommand st) := by
  have answered (session : Session) {nbytes : Int} (given : 0 ≤ nbytes) :
      InStep (Scan.drop {st with session := session} nbytes) := by
    have same : InStep {st with session := session} :=
      ⟨inStep.invariant,inStep.origin,inStep.stops⟩
    exact same.drop enough given
  have start := inStep.origin enough
  have stops := inStep.stops enough
  have counted := inStep.invariant.counted
  unfold scanCommand
  dsimp only
  split
  · have inside : st.buff.writep ≤ st.iac ∧ st.iac ≤ st.buff.readp := ⟨start,by omega⟩
    have one : (1 : Int) < st.buff.nbuffered := by omega
    obtain ⟨read,write⟩ := bfrmstr_ends inside one (by omega)
    refine ⟨inStep.invariant.remove (by decide),fun _ => ?_,fun _ => ?_⟩
    · dsimp only
      omega
    · dsimp only
      omega
  · split
    · exact answered _ (by decide)
    · split
      · split
        · rename_i se found
          have place := mystrchr_bounds found
          exact answered _ (by omega)
        · refine ⟨inStep.invariant,fun _ => ?_,fun _ => ?_⟩
          · dsimp only
            omega
          · dsimp only
            omega
      · exact inStep.drop enough (by decide)

theorem nextCommand_inStep {st next : Scan} (inStep : InStep st)
    (found : nextCommand st = some next) : InStep next ∧ 2 ≤ next.size := by
  obtain ⟨enough,long,iac,located,rfl⟩ := nextCommand_found found
  have start := inStep.origin enough
  have stops := inStep.stops enough
  have place := mystrchr_bounds located
  refine ⟨⟨inStep.invariant,fun _ => ?_,fun _ => ?_⟩,long⟩
  · dsimp only
    omega
  · dsimp only
    omega

/-- The rule for what holds whenever a command is handled. -/
theorem commands_along {holds : Scan → Prop} {g : Gateway}
    (first : ∀ st, nextCommand {g with iac := g.buff.writep, size := g.buff.nbuffered} = some st →
      holds st)
    (kept : ∀ st next, holds st → nextCommand (scanCommand st) = some next → holds next) :
    ∀ st ∈ commands g, holds st := by
  have from_first (st : Scan) (start : holds st) : ∀ other ∈ commandsFrom st, holds other := by
    induction st using commandsFrom.induct with
    | case1 st ih =>
      intro other member
      rw [commandsFrom] at member
      rcases List.mem_cons.mp member with rfl | later
      · exact start
      · split at later
        · exact absurd later List.not_mem_nil
        · rename_i next found
          exact ih next found (kept st next start found) other later
  intro st member
  unfold commands at member
  split at member
  · exact absurd member List.not_mem_nil
  · rename_i entered found
    exact from_first entered (first entered found) st member

/-- Every command takes at least two bytes off the count. -/
theorem commandsFrom_length {st : Scan} (enough : 2 ≤ st.size) :
    2*((commandsFrom st).length : Int) ≤ st.size := by
  induction st using commandsFrom.induct with
  | case1 st ih =>
    have shorter := scanCommand_size st
    rw [commandsFrom,List.length_cons]
    split
    · rw [List.length_nil]
      omega
    · rename_i next found
      have bound := ih next found (nextCommand_found found).2.1
      have rest := nextCommand_size found
      omega

/-- The same scan over another block of bytes. -/
structure Twin (st other : Scan) : Prop where
  session : other.session = st.session
  iac : other.iac = st.iac
  size : other.size = st.size
  buff : other.buff = {st.buff with mem := other.buff.mem}

theorem bfrmstr_congr {a b : Buffer} (alike : b = {a with mem := b.mem}) {ptr nbytes : Int}
    (given : 0 ≤ nbytes) (read : ∀ i ∈ bfrmstrReads a ptr nbytes, a.mem.cell i = b.mem.cell i) :
    (bfrmstr b ptr nbytes).2 = {(bfrmstr a ptr nbytes).2 with mem := (bfrmstr b ptr nbytes).2.mem} ∧
      ∀ i, a.mem.cell i = b.mem.cell i →
        (bfrmstr a ptr nbytes).2.mem.cell i = (bfrmstr b ptr nbytes).2.mem.cell i := by
  rw [alike]
  unfold bfrmstrReads at read
  unfold bfrmstr
  dsimp only at read ⊢
  split_ifs at read ⊢ with inside all clamped
  · exact ⟨rfl,fun i same => Block.copy_congr _ same⟩
  · exact ⟨rfl,fun i same => Block.shiftLeft_congr (by omega) read same⟩
  · exact ⟨rfl,fun i same => Block.shiftLeft_congr (by omega) read same⟩
  · exact ⟨rfl,fun i same => same⟩

theorem processTelnetCpcSuboption_congr {mem other : Block UInt8} {optstr optlen : Int}
    (read : ∀ i ∈ suboptionReads mem optstr optlen, mem.cell i = other.cell i) (s : Session) :
    processTelnetCpcSuboption mem optstr optlen s =
      processTelnetCpcSuboption other optstr optlen s := by
  unfold suboptionReads at read
  unfold processTelnetCpcSuboption
  by_cases short : optlen < 3
  · rw [if_pos short,if_pos short]
  · rw [if_neg short] at read ⊢
    rw [List.forall_mem_append,List.forall_mem_cons] at read
    obtain ⟨⟨code,searched⟩,rest⟩ := read
    rw [if_neg short]
    dsimp only
    rw [← mystrchr_congr searched,code]
    cases found : mystrchr mem (optstr+1) SE (optlen-1) with
    | none => rfl
    | some se =>
      simp only [found,List.forall_mem_cons] at rest
      obtain ⟨before,copied⟩ := rest
      dsimp only
      rw [← before]
      split
      · rfl
      · rename_i marked
        rw [if_neg marked] at copied
        rw [Block.read_congr copied]

theorem answerSuboption_congr {st other : Scan} (twin : Twin st other) {option : UInt8}
    (read : ∀ i ∈ answerSuboptionReads st option, st.buff.mem.cell i = other.buff.mem.cell i) :
    answerSuboption other option = answerSuboption st option := by
  unfold answerSuboptionReads at read
  unfold answerSuboption
  rw [twin.session,twin.iac,twin.size]
  split
  · rename_i asked
    rw [if_pos asked] at read
    rw [processTelnetCpcSuboption_congr read]
  · rfl

theorem Twin.drop {st other : Scan} (twin : Twin st other) {nbytes : Int} (given : 0 ≤ nbytes)
    (read : ∀ i ∈ bfrmstrReads st.buff st.iac nbytes, st.buff.mem.cell i = other.buff.mem.cell i) :
    Twin (st.drop nbytes) (other.drop nbytes) ∧ ∀ i, st.buff.mem.cell i = other.buff.mem.cell i →
      (st.drop nbytes).buff.mem.cell i = (other.drop nbytes).buff.mem.cell i := by
  obtain ⟨session,iac,size,buff⟩ := twin
  obtain ⟨alike,kept⟩ := bfrmstr_congr buff given read
  unfold Scan.drop
  rw [iac,size]
  exact ⟨⟨session,rfl,rfl,alike⟩,kept⟩

/-- The lists are complete: where they agree, a command does the same over another
block, and its bytes agree afterwards wherever they did before. -/
theorem scanCommand_congr {st other : Scan} (twin : Twin st other)
    (read : ∀ i ∈ commandReads st, st.buff.mem.cell i = other.buff.mem.cell i) :
    Twin (scanCommand st) (scanCommand other) ∧
      ∀ i, st.buff.mem.cell i = other.buff.mem.cell i →
        (scanCommand st).buff.mem.cell i = (scanCommand other).buff.mem.cell i := by
  obtain ⟨session,iac,size,buff⟩ := twin
  have twin : Twin st other := ⟨session,iac,size,buff⟩
  have dropped (s : Session) {nbytes : Int} (given : 0 ≤ nbytes)
      (removed : ∀ i ∈ bfrmstrReads st.buff st.iac nbytes,
        st.buff.mem.cell i = other.buff.mem.cell i) := by
    have twins : Twin ⟨⟨st.buff,s⟩,st.iac,st.size⟩ ⟨⟨other.buff,s⟩,st.iac,st.size⟩ :=
      ⟨rfl,rfl,rfl,buff⟩
    exact twins.drop given removed
  unfold commandReads at read
  rw [List.forall_mem_cons] at read
  obtain ⟨code,read⟩ := read
  dsimp only at read
  unfold scanCommand
  rw [iac,size,session,← code]
  dsimp only
  split
  · rename_i pair
    rw [if_pos pair] at read
    obtain ⟨alike,kept⟩ := bfrmstr_congr buff (by decide) read
    exact ⟨⟨rfl,rfl,rfl,alike⟩,kept⟩
  · rename_i single
    rw [if_neg single] at read
    split
    · rename_i optcode command
      rw [command] at read
      obtain ⟨option,removed⟩ := List.forall_mem_cons.mp read
      rw [← option]
      exact dropped _ (by decide) removed
    · rename_i command
      rw [command] at read
      dsimp only at read
      split
      · rename_i suboption
        rw [if_pos suboption] at read
        rw [List.forall_mem_append,List.forall_mem_append,List.forall_mem_cons] at read
        obtain ⟨⟨⟨option,answered⟩,searched⟩,removed⟩ := read
        rw [← mystrchr_congr searched,← option,answerSuboption_congr twin answered]
        split
        · rename_i se found
          have place := mystrchr_bounds found
          rw [found] at removed
          exact dropped _ (by omega) removed
        · exact ⟨⟨rfl,rfl,rfl,buff⟩,fun _ same => same⟩
      · rename_i unknown
        rw [if_neg unknown] at read
        exact twin.drop (by decide) read

/-- The loop runs through the commands, each found behind the one before, and ends with
what the last of them leaves. -/
theorem commandsFrom_last (st : Scan) :
    ∃ last, (commandsFrom st).getLast? = some last ∧ scanLoop st = (scanCommand last).toGateway := by
  induction st using commandsFrom.induct with
  | case1 st ih =>
    rw [commandsFrom,scanLoop_eq,scanNext_eq]
    split
    · rename_i none
      rw [none]
      exact ⟨st,rfl,rfl⟩
    · rename_i next found
      obtain ⟨last,final,left⟩ := ih next found
      rw [found]
      exact ⟨last,by rw [List.getLast?_cons,final]; rfl,left⟩

theorem processTelnetOptions_last (g : Gateway) : processTelnetOptions g =
    ((commands g).getLast?.map fun st => (scanCommand st).toGateway).getD g := by
  rw [processTelnetOptions_eq,scanNext_eq]
  unfold commands
  split
  · rename_i none
    rw [none]
    rfl
  · rename_i first found
    obtain ⟨last,final,left⟩ := commandsFrom_last first
    rw [found,final]
    exact left

theorem bfrmstr_writes {b : Buffer} (valid : Valid b) {ptr nbytes : Int} (given : 0 ≤ nbytes) :
    Block.Writes (fun i => 0 ≤ i ∧ i < b.size) b.mem (bfrmstr b ptr nbytes).2.mem := by
  obtain ⟨origin,ordered,bounded,tail,counted⟩ := valid
  have moved (n : Int) (positive : 0 ≤ n) (inside : b.writep ≤ ptr ∧ ptr ≤ b.readp) :
      Block.Writes (fun i => 0 ≤ i ∧ i < b.size) b.mem
        (b.mem.shiftLeft ptr (ptr+n) (b.readp-(ptr+n)).toNat) := by
    apply (Block.shiftLeft_writes _ _ _ _).mono
    intro i place
    omega
  unfold bfrmstr
  dsimp only
  split_ifs with inside all clamped
  · apply (Block.copy_writes _ _ _).mono
    intro i place
    rw [List.length_replicate] at place
    omega
  · exact moved _ (by omega) inside
  · exact moved _ given inside
  · exact Block.Writes.refl _ _

private theorem bfrmstr_sublist_of_part {b : Buffer} (valid : Valid b) {ptr : Int} {n : Nat}
    (start : b.writep ≤ ptr) (within : ptr+n ≤ b.readp) (part : (n : Int) < b.nbuffered) :
    (bfrmstr b ptr n).2.content.Sublist b.content := by
  have holds := valid.holds
  have stops := holds.stops
  have counted := holds.counted
  obtain ⟨k,place⟩ : ∃ k : Nat, ptr = b.writep+k := ⟨(ptr-b.writep).toNat,by omega⟩
  have split : b.content = b.content.take k ++
      ((b.content.drop k).take n ++ (b.content.drop k).drop n) := by
    rw [List.take_append_drop,List.take_append_drop]
  have front : (b.content.take k).length = k := by
    rw [List.length_take]
    omega
  have middle : ((b.content.drop k).take n).length = n := by
    rw [List.length_take,List.length_drop]
    omega
  have whole := holds
  rw [split] at whole
  have removed := (bfrmstr_part whole (by rw [← split,middle]; omega)).2
  rw [front,middle,← place] at removed
  rw [removed.content_eq]
  conv_rhs => rw [split]
  exact (List.Sublist.refl _).append (List.sublist_append_right _ _)

theorem bfrmstr_sublist {b : Buffer} (valid : Valid b) {ptr nbytes : Int} (given : 0 ≤ nbytes) :
    (bfrmstr b ptr nbytes).2.content.Sublist b.content := by
  have holds := valid.holds
  have stops := holds.stops
  have counted := holds.counted
  by_cases inside : b.writep ≤ ptr ∧ ptr ≤ b.readp
  · by_cases all : nbytes ≥ b.nbuffered
    · rw [bfrmstr_all holds (by omega) (by omega),(bfinit_holds b).content_eq]
      exact List.nil_sublist _
    · by_cases clamped : nbytes > b.readp-ptr
      · have same : (bfrmstr b ptr nbytes).2 = (bfrmstr b ptr (b.readp-ptr).toNat).2 := by
          have amount : ((b.readp-ptr).toNat : Int) = b.readp-ptr := Int.toNat_of_nonneg (by omega)
          have part : ¬b.readp-ptr ≥ b.nbuffered := by omega
          simp only [bfrmstr,amount,if_pos inside,if_neg all,if_neg part,if_pos clamped,gt_iff_lt,
            lt_irrefl,if_false]
        rw [same]
        exact bfrmstr_sublist_of_part valid inside.1 (by omega) (by omega)
      · rw [← Int.toNat_of_nonneg given]
        exact bfrmstr_sublist_of_part valid inside.1 (by omega) (by omega)
  · unfold bfrmstr
    rw [if_neg inside]

/-- A command and the search behind it stay inside a buffer of `size` bytes, and read
nothing past the byte at `readp`. -/
structure Confined (size : Int) (st : Scan) : Prop where
  before : st.buff.readp ≤ size
  command : ∀ i ∈ commandReads st, 0 ≤ i ∧ i ≤ st.buff.readp
  after : (scanCommand st).buff.readp ≤ size
  search : ∀ i ∈ searchReads (scanCommand st), 0 ≤ i ∧ i ≤ (scanCommand st).buff.readp

theorem scanCommand_capacity (st : Scan) : (scanCommand st).buff.size = st.buff.size := by
  let same (b : Buffer) : Prop := b.size = st.buff.size
  have remove (b : Buffer) (ptr nbytes : Int) (_ : 0 ≤ nbytes) (before : same b) :
      same (bfrmstr b ptr nbytes).2 := (bfrmstr_size b ptr nbytes).trans before
  have start : same st.buff := rfl
  exact scanCommand_buffer remove start

theorem commands_inStep {g : Gateway} (invariant : Invariant g.buff) :
    ∀ st ∈ commands g, InStep st ∧ 2 ≤ st.size ∧ st.buff.size = g.buff.size := by
  have entered : InStep {g with iac := g.buff.writep, size := g.buff.nbuffered} := by
    have counted := invariant.counted
    refine ⟨invariant,fun _ => le_rfl,fun _ => ?_⟩
    dsimp only
    omega
  have capacity {st next : Scan} (found : nextCommand st = some next) :
      next.buff.size = st.buff.size := by
    obtain ⟨_,_,_,_,rfl⟩ := nextCommand_found found
    rfl
  apply commands_along
  · intro st found
    obtain ⟨inStep,enough⟩ := nextCommand_inStep entered found
    exact ⟨inStep,enough,capacity found⟩
  · intro st next before found
    obtain ⟨inStep,enough,same⟩ := before
    obtain ⟨further,long⟩ := nextCommand_inStep (scanCommand_inStep inStep enough) found
    exact ⟨further,long,(capacity found).trans ((scanCommand_capacity st).trans same)⟩

theorem commands_length {g : Gateway} (invariant : Invariant g.buff) :
    2*((commands g).length : Int) ≤ g.buff.nbuffered := by
  have ordered := invariant.ordered
  have counted := invariant.counted
  unfold commands
  split
  · rw [List.length_nil]
    omega
  · rename_i first found
    have bound := commandsFrom_length (nextCommand_found found).2.1
    have size : first.size ≤ g.buff.nbuffered := (nextCommand_size found).1
    omega

theorem commands_confined {g : Gateway} (invariant : Invariant g.buff) :
    ∀ st ∈ commands g, Confined g.buff.size st := by
  intro st member
  obtain ⟨inStep,enough,capacity⟩ := commands_inStep invariant st member
  have after := scanCommand_inStep inStep enough
  have size := scanCommand_capacity st
  have bounded := inStep.invariant.bounded
  have tail := inStep.invariant.tail
  have limited := after.invariant.bounded
  have stop := after.invariant.tail
  refine ⟨by omega,fun i => commandReads_bounds inStep enough,by omega,fun i read => ?_⟩
  obtain ⟨origin,within⟩ := searchReads_bounds after read
  exact ⟨origin,within.le⟩

/-- The scan of any content ends after at most one command for every two bytes; whatever it
reads lies in the buffer and not behind the byte at `readp`, and it only takes bytes away. -/
theorem processTelnetOptions_safe (g : Gateway) (invariant : Invariant g.buff) :
    (2*((commands g).length : Int) ≤ g.buff.nbuffered ∧ processTelnetOptions g =
      ((commands g).getLast?.map fun st => (scanCommand st).toGateway).getD g) ∧
    (∀ i ∈ mystrchrReads g.buff.mem g.buff.writep IAC g.buff.nbuffered,
      0 ≤ i ∧ i ≤ g.buff.readp) ∧
    (∀ st ∈ commands g, Confined g.buff.size st) ∧
    Block.Writes (fun i => 0 ≤ i ∧ i < g.buff.size+1) g.buff.mem (processTelnetOptions g).buff.mem ∧
    Invariant (processTelnetOptions g).buff ∧
    (processTelnetOptions g).buff.content.Sublist g.buff.content := by
  have origin := invariant.origin
  have counted := invariant.counted
  let holds (b : Buffer) : Prop := Invariant b ∧ b.size = g.buff.size ∧
    b.content.Sublist g.buff.content ∧
    Block.Writes (fun i => 0 ≤ i ∧ i < g.buff.size+1) g.buff.mem b.mem
  have remove (b : Buffer) (ptr nbytes : Int) (given : 0 ≤ nbytes) (before : holds b) :
      holds (bfrmstr b ptr nbytes).2 := by
    obtain ⟨kept,capacity,shorter,writes⟩ := before
    refine ⟨kept.remove given,(bfrmstr_size b ptr nbytes).trans capacity,
      (bfrmstr_sublist kept.toValid given).trans shorter,writes.trans ?_⟩
    apply (bfrmstr_writes kept.toValid given).mono
    intro i inside
    omega
  have start : holds g.buff := ⟨invariant,rfl,List.Sublist.refl _,Block.Writes.refl _ _⟩
  obtain ⟨kept,_,shorter,writes⟩ := processTelnetOptions_buffer holds remove start
  refine ⟨⟨commands_length invariant,processTelnetOptions_last g⟩,?_,commands_confined invariant,
    writes,kept,shorter⟩
  intro i read
  have bounds := mystrchrReads_bounds read
  omega

theorem processTelnetOptions_safe_truncated :
    let g : Gateway := ⟨(readFromFdToBuffer (.bytes [IAC,SB,44,65,IAC,WILL]) (bfmalloc 16)).buff,
      processStart ⟨⟨0,0,0xBD,0⟩,[]⟩⟩
    Invariant (processTelnetOptions g).buff ∧ 2*((commands g).length : Int) ≤ 6 ∧
      ∀ st ∈ commands g, Confined 16 st := by
  have invariant : Invariant (readFromFdToBuffer (.bytes [IAC,SB,44,65,IAC,WILL])
      (bfmalloc 16)).buff :=
    ⟨⟨by decide,by decide,by decide,by decide,by decide⟩,by decide⟩
  obtain ⟨⟨bound,_⟩,_,confined,_,kept,_⟩ := processTelnetOptions_safe
    ⟨_,processStart ⟨⟨0,0,0xBD,0⟩,[]⟩⟩ invariant
  exact ⟨kept,bound,confined⟩

end SerialIp

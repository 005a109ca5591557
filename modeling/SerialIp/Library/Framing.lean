import Mathlib.Data.List.Infix

/-! Framing on a line that several sources share. A code is recognised symbol by
symbol; the line is between units or inside a unit of one source, and only that source
may go on. Every stream received this way is a sequence of whole units, each of one
source, with at most the last one unfinished. -/
namespace SerialIp.Library.Framing

/-- The phases within a unit: `next` is `none` where no unit goes on like this. -/
structure Code (φ α : Type) where
  ground : φ
  next : φ → α → Option φ

/-- Whole units, the last of which may be unfinished. -/
def Framed {υ α : Type} (encode : υ → List α) (stream : List α) : Prop :=
  ∃ (units : List υ) (front : List α), stream = units.flatMap encode ++ front ∧
    (front = [] ∨ ∃ unit, front <+: encode unit)

theorem Framed.map {υ ν α β : Type} {encode : υ → List α} {encode' : ν → List β}
    (unit : υ → ν) (symbol : α → β) (same : ∀ u, (encode u).map symbol = encode' (unit u)) {stream : List α}
    (framed : Framed encode stream) : Framed encode' (stream.map symbol) := by
  obtain ⟨units,front,rfl,last⟩ := framed
  refine ⟨units.map unit,front.map symbol,?_,?_⟩
  · rw [List.map_append,List.map_flatMap,List.flatMap_map]
    simp only [same]
  · rcases last with rfl | ⟨u,begins⟩
    · exact Or.inl rfl
    · exact Or.inr ⟨unit u,same u ▸ begins.map symbol⟩

namespace Code
variable {υ φ α ι : Type} (code : Code φ α)

def read : φ → List α → Option φ
  | phase,[] => some phase
  | phase,x::xs => (code.next phase x).bind fun phase => read phase xs

def Completes (phase : φ) (xs : List α) : Prop := code.read phase xs = some code.ground

/-- What has been read since the line was last between units. -/
inductive Opening : List α → φ → Prop
  | first {x phase} : code.next code.ground x = some phase → Opening [x] phase
  | further {front x phase next} : Opening front phase → phase ≠ code.ground →
      code.next phase x = some next → Opening (front ++ [x]) next

/-- The phases recognise the units that `encode` gives. -/
structure Recognises (encode : υ → List α) : Prop where
  complete : ∀ unit, code.Completes code.ground (encode unit)
  sound : ∀ front phase, code.Opening front phase →
    ∃ unit, front <+: encode unit ∧ (phase = code.ground → front = encode unit)

variable {code}

theorem read_append (phase : φ) (xs ys : List α) :
    code.read phase (xs ++ ys) = (code.read phase xs).bind fun phase => code.read phase ys := by
  induction xs generalizing phase with
  | nil => rfl
  | cons x xs ih =>
    simp only [List.cons_append,read]
    cases code.next phase x with
    | none => rfl
    | some next => exact ih next

theorem Completes.append {phase : φ} {xs ys : List α} (first : code.Completes phase xs)
    (second : code.Completes code.ground ys) : code.Completes phase (xs ++ ys) := by
  unfold Completes at first second ⊢
  rw [read_append,first]
  exact second

theorem Completes.split {phase : φ} {xs ys : List α} (whole : code.Completes phase (xs ++ ys)) :
    ∃ between, code.read phase xs = some between ∧ code.Completes between ys := by
  unfold Completes at whole
  rw [read_append] at whole
  exact Option.bind_eq_some_iff.mp whole

/-- A framed stream is readable from its beginning to its end. -/
theorem Recognises.readable {encode : υ → List α} (recognises : code.Recognises encode)
    {stream : List α} (framed : Framed encode stream) :
    ∃ phase, code.read code.ground stream = some phase := by
  obtain ⟨units,front,rfl,last⟩ := framed
  have whole : code.Completes code.ground (units.flatMap encode) := by
    induction units with
    | nil => rfl
    | cons unit units ih => exact (recognises.complete unit).append ih
  rw [read_append,whole]
  rcases last with rfl | ⟨unit,rest,split⟩
  · exact ⟨code.ground,rfl⟩
  · have complete := recognises.complete unit
    rw [← split] at complete
    obtain ⟨phase,begun,_⟩ := complete.split
    exact ⟨phase,begun⟩

/-- Between units, or inside one that `source` has begun. -/
inductive Line (code : Code φ α) (ι : Type)
  | idle
  | busy (source : ι) (phase : φ) (inside : phase ≠ code.ground)

namespace Line
variable [DecidableEq ι] [DecidableEq φ]

def phase (source : ι) : Line code ι → φ
  | idle => code.ground
  | busy other phase _ => if other = source then phase else code.ground

/-- The source that is inside a unit. -/
def source : Line code ι → Option ι
  | idle => none
  | busy source _ _ => some source

/-- No other source is inside a unit. -/
def Free (source : ι) : Line code ι → Prop
  | idle => True
  | busy other _ _ => other = source

def settle (source : ι) (phase : φ) : Line code ι :=
  if inside : phase = code.ground then idle else busy source phase inside

instance (source : ι) (line : Line code ι) : Decidable (line.Free source) :=
  match line with
  | idle => .isTrue trivial
  | busy other _ _ => inferInstanceAs (Decidable (other = source))

def receive (line : Line code ι) (source : ι) (x : α) : Option (Line code ι) :=
  if line.Free source then (code.next (line.phase source) x).map (settle source) else none

def receiveAll : Line code ι → List (ι × α) → Option (Line code ι)
  | line,[] => some line
  | line,(source,x)::rest => (line.receive source x).bind fun line => receiveAll line rest

theorem receiveAll_append (line : Line code ι) (xs ys : List (ι × α)) :
    line.receiveAll (xs ++ ys) = (line.receiveAll xs).bind fun line => line.receiveAll ys := by
  induction xs generalizing line with
  | nil => rfl
  | cons x xs ih =>
    simp only [List.cons_append,receiveAll]
    cases line.receive x.1 x.2 with
    | none => rfl
    | some next => exact ih next

@[simp] theorem settle_phase (source : ι) (phase : φ) :
    (settle source phase : Line code ι).phase source = phase := by
  unfold settle
  split
  · rename_i ground
    exact ground.symm
  · exact if_pos rfl

omit [DecidableEq ι] in
theorem settle_free (source : ι) (phase : φ) : (settle source phase : Line code ι).Free source := by
  unfold settle
  split
  · trivial
  · rfl

theorem settle_other {source other : ι} (different : other ≠ source) (phase : φ) :
    (settle source phase : Line code ι).phase other = code.ground := by
  unfold settle
  split
  · rfl
  · exact if_neg (Ne.symm different)

theorem Free.settled {source : ι} {line : Line code ι} (free : line.Free source) :
    line = settle source (line.phase source) := by
  cases line with
  | idle =>
    have none : (settle source code.ground : Line code ι) = idle := dif_pos rfl
    exact none.symm
  | busy other phase inside =>
    have same : other = source := free
    subst same
    have here : (busy other phase inside : Line code ι).phase other = phase := if_pos rfl
    rw [here]
    exact (dif_neg inside).symm

theorem Free.other {source other : ι} {line : Line code ι} (free : line.Free source)
    (different : other ≠ source) : line.phase other = code.ground := by
  rw [free.settled]
  exact settle_other different _

omit [DecidableEq ι] [DecidableEq φ] in
theorem free_iff {source : ι} {line : Line code ι} :
    line.Free source ↔ line.source = none ∨ line.source = some source := by
  cases line with
  | idle => simp [Free,Line.source]
  | busy other phase inside => simp [Free,Line.source]

omit [DecidableEq φ] in
theorem phase_of_source {source : ι} {line : Line code ι} (apart : line.source ≠ some source) :
    line.phase source = code.ground := by
  cases line with
  | idle => rfl
  | busy other phase inside => exact if_neg fun same => apart (congrArg some same)

/-- What one source puts on a line that is free for it is received like on a line of its own. -/
theorem receiveAll_source {source : ι} {line : Line code ι} (free : line.Free source) (xs : List α) :
    line.receiveAll (xs.map (source,·)) = (code.read (line.phase source) xs).map (settle source) := by
  induction xs generalizing line with
  | nil => exact congrArg some free.settled
  | cons x xs ih =>
    simp only [List.map_cons,receiveAll,receive,if_pos free,read]
    cases code.next (line.phase source) x with
    | none => rfl
    | some phase =>
      have later := ih (settle_free source phase)
      rw [settle_phase] at later
      exact later

/-- A source that completes its units in `sent ++ rest` may put `sent` on the line if
no other is inside a unit; the other sources are where they were. -/
theorem send {source : ι} {line : Line code ι} {sent rest : List α}
    (free : sent = [] ∨ line.Free source)
    (completes : code.Completes (line.phase source) (sent ++ rest)) :
    ∃ next : Line code ι, line.receiveAll (sent.map (source,·)) = some next ∧
      code.Completes (next.phase source) rest ∧
      ∀ other, other ≠ source → next.phase other = line.phase other := by
  rcases free with rfl | free
  · exact ⟨line,rfl,completes,fun _ _ => rfl⟩
  · obtain ⟨phase,begun,later⟩ := completes.split
    refine ⟨settle source phase,?_,?_,?_⟩
    · rw [receiveAll_source free,begun]
      rfl
    · rw [settle_phase]
      exact later
    · intro other different
      rw [settle_other different,free.other different]

/-- The units of a shared line, each symbol with its source. -/
def encodeFrom (encode : υ → List α) (unit : ι × υ) : List (ι × α) :=
  (encode unit.2).map (unit.1,·)

/-- What is on the line: whole units, then what the source inside a unit has sent of it. -/
def Explains (encode : υ → List α) (line : Line code ι) (stream : List (ι × α)) : Prop :=
  ∃ (units : List (ι × υ)) (front : List (ι × α)),
    stream = units.flatMap (encodeFrom encode) ++ front ∧
    match line with
    | idle => front = []
    | busy source phase _ => ∃ begun, front = begun.map (source,·) ∧ code.Opening begun phase

omit [DecidableEq ι] in
theorem Explains.close {encode : υ → List α} (recognises : code.Recognises encode) {source : ι}
    {units : List (ι × υ)} {front : List α} {phase : φ} (opening : code.Opening front phase) :
    (settle source phase : Line code ι).Explains encode
      (units.flatMap (encodeFrom encode) ++ front.map (source,·)) := by
  unfold settle
  split
  · rename_i ground
    obtain ⟨unit,_,whole⟩ := recognises.sound front phase opening
    refine ⟨units ++ [(source,unit)],[],?_,rfl⟩
    rw [whole ground,List.flatMap_append]
    simp [encodeFrom]
  · exact ⟨units,_,rfl,front,rfl,opening⟩

theorem Explains.receive {encode : υ → List α} (recognises : code.Recognises encode)
    {line next : Line code ι} {stream : List (ι × α)} (explains : line.Explains encode stream)
    {source : ι} {x : α} (received : line.receive source x = some next) :
    next.Explains encode (stream ++ [(source,x)]) := by
  obtain ⟨units,front,rfl,state⟩ := explains
  unfold Line.receive at received
  split at received
  · rename_i free
    obtain ⟨phase,step,rfl⟩ := Option.map_eq_some_iff.mp received
    cases line with
    | idle =>
      have none : front = [] := state
      have opening : code.Opening [x] phase := .first step
      rw [none,List.append_nil]
      exact Explains.close recognises opening
    | busy other before inside =>
      obtain ⟨begun,rfl,opening⟩ := state
      have same : other = source := free
      subst same
      have here : (busy other before inside : Line code ι).phase other = before := if_pos rfl
      rw [here] at step
      have further : code.Opening (begun ++ [x]) phase := .further opening inside step
      have closed : (settle other phase : Line code ι).Explains encode
          (units.flatMap (encodeFrom encode) ++ (begun ++ [x]).map (other,·)) :=
        Explains.close recognises further
      rw [List.map_append,← List.append_assoc] at closed
      exact closed
  · contradiction

theorem Explains.receiveAll {encode : υ → List α} (recognises : code.Recognises encode)
    {line next : Line code ι} {stream : List (ι × α)} (explains : line.Explains encode stream)
    {xs : List (ι × α)} (received : line.receiveAll xs = some next) :
    next.Explains encode (stream ++ xs) := by
  induction xs generalizing line stream with
  | nil =>
    cases received
    rw [List.append_nil]
    exact explains
  | cons x xs ih =>
    obtain ⟨between,first,later⟩ := Option.bind_eq_some_iff.mp received
    have further := ih (explains.receive recognises first) later
    rw [List.append_assoc] at further
    exact further

/-- Every stream a shared line receives is framed, each unit from one source. -/
theorem framed {encode : υ → List α} (recognises : code.Recognises encode) {line : Line code ι}
    {stream : List (ι × α)} (received : (idle : Line code ι).receiveAll stream = some line) :
    Framed (encodeFrom (ι := ι) encode) stream := by
  have start : (idle : Line code ι).Explains encode [] := ⟨[],[],rfl,rfl⟩
  obtain ⟨units,front,split,state⟩ := start.receiveAll recognises received
  refine ⟨units,front,split,?_⟩
  cases line with
  | idle => exact Or.inl state
  | busy source phase inside =>
    obtain ⟨begun,rfl,opening⟩ := state
    obtain ⟨unit,⟨rest,whole⟩,_⟩ := recognises.sound begun phase opening
    refine Or.inr ⟨(source,unit),rest.map (source,·),?_⟩
    rw [← List.map_append,whole]
    rfl

end Line
end Code
end SerialIp.Library.Framing

import Mathlib.Data.List.Infix

/-! Runs of a deterministic machine over a list of actions. A property that one
step keeps exactly when the step meets a condition holds in every state of a
run exactly when every step of the run meets it. -/
namespace SerialIp.Library.Machine
variable {σ α : Type} (step : σ → α → σ)

def run (s : σ) (actions : List α) : σ := actions.foldl step s

/-- Every action of the run meets `allowed` in the state it is taken in. -/
def Along (allowed : σ → α → Prop) : σ → List α → Prop
  | _,[] => True
  | s,a::actions => allowed s a ∧ Along allowed (step s a) actions

/-- Every state of the run, the first and the last one included. -/
def Throughout (holds : σ → Prop) : σ → List α → Prop
  | s,[] => holds s
  | s,a::actions => holds s ∧ Throughout holds (step s a) actions

variable {step} in
theorem along_of_forall {allowed : α → Prop} (s : σ) {actions : List α}
    (all : ∀ a ∈ actions, allowed a) : Along step (fun _ => allowed) s actions := by
  induction actions generalizing s with
  | nil => trivial
  | cons a actions ih =>
    obtain ⟨first,rest⟩ := List.forall_mem_cons.mp all
    exact ⟨first,ih _ rest⟩

variable {step} in
theorem Along.and {first second : σ → α → Prop} {s : σ} {actions : List α}
    (left : Along step first s actions) (right : Along step second s actions) :
    Along step (fun s a => first s a ∧ second s a) s actions := by
  induction actions generalizing s with
  | nil => trivial
  | cons a actions ih => exact ⟨⟨left.1,right.1⟩,ih left.2 right.2⟩

@[simp] theorem run_nil (s : σ) : run step s [] = s := rfl

@[simp] theorem run_cons (s : σ) (a : α) (actions : List α) :
    run step s (a::actions) = run step (step s a) actions := rfl

theorem run_append (s : σ) (first second : List α) :
    run step s (first ++ second) = run step (run step s first) second := List.foldl_append

theorem run_concat (s : σ) (actions : List α) (a : α) :
    run step s (actions ++ [a]) = step (run step s actions) a := List.foldl_concat ..

theorem throughout_iff_prefixes (holds : σ → Prop) (s : σ) (actions : List α) :
    Throughout step holds s actions ↔
      ∀ before, before <+: actions → holds (run step s before) := by
  induction actions generalizing s with
  | nil => simp [Throughout]
  | cons a actions ih =>
    constructor
    · intro all before initial
      obtain ⟨now,later⟩ := all
      cases before with
      | nil => exact now
      | cons b before =>
        obtain ⟨rfl,shorter⟩ := List.cons_prefix_cons.mp initial
        exact (ih _).mp later before shorter
    · intro all
      refine ⟨all [] List.nil_prefix,(ih _).mpr ?_⟩
      intro before initial
      exact all (a::before) (List.cons_prefix_cons.mpr ⟨rfl,initial⟩)

theorem along_iff_prefixes (allowed : σ → α → Prop) (s : σ) (actions : List α) :
    Along step allowed s actions ↔
      ∀ before a, before ++ [a] <+: actions → allowed (run step s before) a := by
  induction actions generalizing s with
  | nil => simp [Along]
  | cons b actions ih =>
    constructor
    · intro all before a initial
      obtain ⟨now,later⟩ := all
      cases before with
      | nil =>
        obtain ⟨rfl,_⟩ := List.cons_prefix_cons.mp initial
        exact now
      | cons c before =>
        obtain ⟨rfl,shorter⟩ := List.cons_prefix_cons.mp initial
        exact (ih _).mp later before a shorter
    · intro all
      refine ⟨all [] b (List.cons_prefix_cons.mpr ⟨rfl,List.nil_prefix⟩),(ih _).mpr ?_⟩
      intro before a initial
      exact all (b::before) a (List.cons_prefix_cons.mpr ⟨rfl,initial⟩)

variable {step}

/-- The rule for an invariant of all steps that meet a condition. -/
theorem throughout_along (invariant : σ → Prop) {holds : σ → Prop} (allowed : σ → α → Prop)
    (kept : ∀ s a, invariant s → allowed s a → invariant (step s a))
    (enough : ∀ s, invariant s → holds s)
    {s : σ} {actions : List α} (start : invariant s) (along : Along step allowed s actions) :
    Throughout step holds s actions := by
  induction actions generalizing s with
  | nil => exact enough s start
  | cons a actions ih => exact ⟨enough s start,ih (kept s a start along.1) along.2⟩

/-- The rule for what every action of a run does, by an invariant of the states. -/
theorem along_invariant (invariant : σ → Prop) {allowed : σ → α → Prop}
    (kept : ∀ s a, invariant s → invariant (step s a))
    (enough : ∀ s a, invariant s → allowed s a) {s : σ} (start : invariant s) (actions : List α) :
    Along step allowed s actions := by
  induction actions generalizing s with
  | nil => trivial
  | cons a actions ih => exact ⟨enough s a start,ih (kept s a start)⟩

/-- Conditions that agree wherever an invariant holds are met by the same runs. -/
theorem along_congr (invariant : σ → Prop) {first second : σ → α → Prop}
    (kept : ∀ s a, invariant s → invariant (step s a))
    (agree : ∀ s a, invariant s → (first s a ↔ second s a)) {s : σ} (start : invariant s)
    (actions : List α) : Along step first s actions ↔ Along step second s actions := by
  induction actions generalizing s with
  | nil => exact Iff.rfl
  | cons a actions ih => exact and_congr (agree s a start) (ih (kept s a start))

theorem invariant_run (holds : σ → Prop) (kept : ∀ s a, holds s → holds (step s a))
    {s : σ} (start : holds s) (actions : List α) : holds (run step s actions) := by
  induction actions generalizing s with
  | nil => exact start
  | cons a actions ih => exact ih (kept s a start)

/-- The rule for two machines of which one follows the other's steps. -/
theorem run_simulates {τ β : Type} {follow : τ → β → τ} (related : σ → τ → Prop) (action : β → α)
    {legal : β → Prop}
    (kept : ∀ s t b, related s t → legal b → related (step s (action b)) (follow t b)) {s : σ} {t : τ}
    (start : related s t) {actions : List β} (lawful : ∀ b ∈ actions, legal b) :
    related (run step s (actions.map action)) (run follow t actions) := by
  induction actions generalizing s t with
  | nil => exact start
  | cons b actions ih =>
    obtain ⟨now,later⟩ := List.forall_mem_cons.mp lawful
    exact ih (kept s t b start now) later

/-- What the first step that is not allowed spoils for good is intact at the end of a run
exactly when all its steps are allowed. -/
theorem run_iff_along (base intact : σ → Prop) {allowed : σ → α → Prop}
    (kept : ∀ s a, base s → allowed s a → base (step s a))
    (spoilt : ∀ s a, base s → ¬allowed s a → ¬intact (step s a))
    (lasts : ∀ s a, ¬intact s → ¬intact (step s a)) (enough : ∀ s, base s → intact s)
    {s : σ} (start : base s) (actions : List α) :
    intact (run step s actions) ↔ Along step allowed s actions := by
  induction actions generalizing s with
  | nil => exact iff_of_true (enough s start) trivial
  | cons a actions ih =>
    by_cases now : allowed s a
    · exact (ih (kept s a start now)).trans (and_iff_right now).symm
    · have never : ¬intact (run step (step s a) actions) :=
        invariant_run (fun s => ¬intact s) lasts (spoilt s a start now) actions
      exact iff_of_false never fun all => now all.1

/-- Steps that each take something off a measure use it up. -/
theorem run_settles (invariant : σ → Prop) (measure : σ → Nat)
    (kept : ∀ s a, invariant s → invariant (step s a))
    (falls : ∀ s a, invariant s → measure (step s a) ≤ measure s - 1)
    {s : σ} (start : invariant s) {actions : List α} (enough : measure s ≤ actions.length) :
    measure (run step s actions) = 0 := by
  induction actions generalizing s with
  | nil => exact Nat.le_zero.mp enough
  | cons a actions ih =>
    refine ih (kept s a start) ?_
    have less := falls s a start
    rw [List.length_cons] at enough
    omega

/-- What the steps of a run put out, in turn. -/
def emits {β : Type} (step : σ → α → σ) (out : σ → α → List β) : σ → List α → List β
  | _,[] => []
  | s,a::actions => out s a ++ emits step out (step s a) actions

section
variable {β γ : Type} {out : σ → α → List β}

/-- The rule for two machines of which one puts out what the other does. -/
theorem emits_simulates {τ δ : Type} {follow : τ → δ → τ} {told : τ → δ → List β}
    (related : σ → τ → Prop) (action : δ → α) {legal : δ → Prop}
    (kept : ∀ s t b, related s t → legal b →
      out s (action b) = told t b ∧ related (step s (action b)) (follow t b)) {s : σ} {t : τ}
    (start : related s t) {actions : List δ} (lawful : ∀ b ∈ actions, legal b) :
    emits step out s (actions.map action) = emits follow told t actions := by
  induction actions generalizing s t with
  | nil => rfl
  | cons b actions ih =>
    obtain ⟨now,later⟩ := List.forall_mem_cons.mp lawful
    obtain ⟨same,onward⟩ := kept s t b start now
    rw [List.map_cons,emits,emits,same,ih onward later]

/-- Nothing comes from a machine that has halted. -/
theorem emits_halted (halted : σ → Prop) (silent : ∀ s a, halted s → halted (step s a) ∧ out s a = [])
    {s : σ} (now : halted s) (actions : List α) : emits step out s actions = [] := by
  induction actions generalizing s with
  | nil => rfl
  | cons a actions ih =>
    obtain ⟨still,none⟩ := silent s a now
    rw [emits,none,ih still]
    rfl

/-- What every step adds to a view of the state is there at the end of a run. -/
theorem emits_gathered (view : σ → List β) (adds : ∀ s a, view (step s a) = view s ++ out s a) (s : σ)
    (actions : List α) : view (run step s actions) = view s ++ emits step out s actions := by
  induction actions generalizing s with
  | nil => simp [emits]
  | cons a actions ih => rw [run_cons,ih,adds,emits,List.append_assoc]

theorem emits_map {items : σ → α → List γ} {f : γ → List β}
    (each : ∀ s a, out s a = (items s a).flatMap f) (s : σ) (actions : List α) :
    emits step out s actions = (emits step items s actions).flatMap f := by
  induction actions generalizing s with
  | nil => rfl
  | cons a actions ih => rw [emits,emits,each s a,ih,List.flatMap_append]

/-- What is only put out on the way into a halt is put out once. -/
theorem emits_once (halted : σ → Prop) (short : ∀ s a, (out s a).length ≤ 1)
    (halts : ∀ s a, out s a ≠ [] → halted (step s a))
    (silent : ∀ s a, halted s → halted (step s a) ∧ out s a = []) (s : σ) (actions : List α) :
    (emits step out s actions).length ≤ 1 ∧
      (emits step out s actions ≠ [] → halted (run step s actions)) := by
  induction actions generalizing s with
  | nil => exact ⟨Nat.zero_le 1,fun some => absurd rfl some⟩
  | cons a actions ih =>
    rw [emits,run_cons]
    by_cases none : out s a = []
    · rw [none]
      exact ih (step s a)
    · have stopped := halts s a none
      rw [emits_halted halted silent stopped,List.append_nil]
      exact ⟨short s a,fun _ => invariant_run halted (fun s a now => (silent s a now).1) stopped actions⟩

/-- What is only put out on the way into a halt comes behind everything else. -/
theorem emits_last {rest last : σ → α → List β} (halted : σ → Prop)
    (each : ∀ s a, out s a = rest s a ++ last s a) (halts : ∀ s a, last s a ≠ [] → halted (step s a))
    (silent : ∀ s a, halted s → halted (step s a) ∧ rest s a = []) (s : σ) (actions : List α) :
    emits step out s actions = emits step rest s actions ++ emits step last s actions := by
  induction actions generalizing s with
  | nil => rfl
  | cons a actions ih =>
    rw [emits,emits,emits,each s a,ih]
    by_cases empty : last s a = []
    · simp [empty]
    · have none : emits step rest (step s a) actions = [] :=
        emits_halted halted silent (halts s a empty) actions
      simp [none]

end

/-- The exact form: on top of a base that every legal step keeps, the property
survives a step if and only if the step is allowed. Then it holds throughout a
legal run if and only if all its steps are allowed. -/
theorem throughout_iff_along (base holds : σ → Prop) (legal allowed : σ → α → Prop)
    (base_step : ∀ s a, base s → legal s a → base (step s a))
    (exact_step : ∀ s a, base s → holds s → legal s a → (holds (step s a) ↔ allowed s a))
    {s : σ} {actions : List α} (ground : base s) (start : holds s)
    (lawful : Along step legal s actions) :
    Throughout step holds s actions ↔ Along step allowed s actions := by
  induction actions generalizing s with
  | nil => simp [Throughout,Along,start]
  | cons a actions ih =>
    have now := exact_step s a ground start lawful.1
    have firm := base_step s a ground lawful.1
    constructor
    · intro all
      obtain ⟨_,later⟩ := all
      have next : holds (step s a) :=
        (throughout_iff_prefixes step holds _ _).mp later [] List.nil_prefix
      exact ⟨now.mp next,(ih firm next lawful.2).mp later⟩
    · intro all
      obtain ⟨meets,later⟩ := all
      have next := now.mpr meets
      exact ⟨start,(ih firm next lawful.2).mpr later⟩

end SerialIp.Library.Machine

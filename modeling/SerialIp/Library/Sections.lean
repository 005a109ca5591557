import SerialIp.Library.Machine

/-! Lists in sections: each header with the items up to the next one, after the items
before the first. A reader that applies every item to the last header it saw, or to
the defaults that a header starts from, does what the sections say. -/
namespace SerialIp.Library.Sections
variable {α η σ β : Type} (header : α → Option η) (apply : α → σ → σ)

def preamble (xs : List α) : List α := xs.takeWhile fun x => (header x).isNone

def sections : List α → List (η × List α)
  | [] => []
  | x::xs =>
    match header x with
    | some h => (h,preamble header xs)::sections xs
    | none => sections xs

/-- The sections read so far, the last one still open. -/
structure Outline (η σ : Type) where
  defaults : σ
  closed : List (η × σ)
  current : Option (η × σ)

def Outline.start (s : σ) : Outline η σ := ⟨s,[],none⟩

def Outline.entries (o : Outline η σ) : List (η × σ) := o.closed ++ o.current.toList

def Outline.step (o : Outline η σ) (x : α) : Outline η σ :=
  match header x,o.current with
  | some h,_ => ⟨o.defaults,o.entries,some (h,o.defaults)⟩
  | none,none => {o with defaults := apply x o.defaults}
  | none,some (h,s) => {o with current := some (h,apply x s)}

def applyAll (xs : List α) (s : σ) : σ := xs.foldl (fun s x => apply x s) s

@[simp] theorem applyAll_nil (s : σ) : applyAll apply [] s = s := rfl

@[simp] theorem applyAll_cons (x : α) (xs : List α) (s : σ) :
    applyAll apply (x::xs) s = applyAll apply xs (apply x s) := rfl

variable {header}

theorem preamble_header {x : α} {h : η} (found : header x = some h) (xs : List α) :
    preamble header (x::xs) = [] := by
  unfold preamble
  rw [List.takeWhile_cons,found]
  rfl

theorem preamble_item {x : α} (item : header x = none) (xs : List α) :
    preamble header (x::xs) = x::preamble header xs := by
  unfold preamble
  rw [List.takeWhile_cons,item]
  rfl

theorem sections_header {x : α} {h : η} (found : header x = some h) (xs : List α) :
    sections header (x::xs) = (h,preamble header xs)::sections header xs := by
  rw [sections,found]

theorem sections_item {x : α} (item : header x = none) (xs : List α) :
    sections header (x::xs) = sections header xs := by
  rw [sections,item]

theorem length_sections (xs : List α) :
    (sections header xs).length = xs.countP fun x => (header x).isSome := by
  induction xs with
  | nil => rfl
  | cons x xs ih =>
    cases found : header x with
    | none => rw [sections_item found,ih,List.countP_cons_of_neg (by simp [found])]
    | some h =>
      rw [sections_header found,List.length_cons,ih,List.countP_cons_of_pos (by simp [found])]

theorem mem_sections {xs : List α} {one : η × List α} (member : one ∈ sections header xs) :
    ∃ x ∈ xs, header x = some one.1 := by
  induction xs with
  | nil => nomatch member
  | cons x xs ih =>
    cases found : header x with
    | none =>
      rw [sections_item found] at member
      obtain ⟨y,inside,same⟩ := ih member
      exact ⟨y,List.mem_cons_of_mem _ inside,same⟩
    | some h =>
      rw [sections_header found] at member
      rcases List.mem_cons.mp member with rfl | later
      · exact ⟨x,List.mem_cons_self,found⟩
      · obtain ⟨y,inside,same⟩ := ih later
        exact ⟨y,List.mem_cons_of_mem _ inside,same⟩

variable {apply} {o : Outline η σ} {x : α}

theorem step_header {h : η} (found : header x = some h) :
    o.step header apply x = ⟨o.defaults,o.entries,some (h,o.defaults)⟩ := by
  unfold Outline.step
  rw [found]

theorem step_defaults (item : header x = none) (unopened : o.current = none) :
    o.step header apply x = {o with defaults := apply x o.defaults} := by
  unfold Outline.step
  rw [item,unopened]

theorem step_current {h : η} {s : σ} (item : header x = none) (opened : o.current = some (h,s)) :
    o.step header apply x = {o with current := some (h,apply x s)} := by
  unfold Outline.step
  rw [item,opened]

/-- A section is open: its items go to it, the sections behind it start from the defaults. -/
theorem run_open (d : σ) (closed : List (η × σ)) (h : η) (s : σ) (xs : List α) :
    (Machine.run (Outline.step header apply) ⟨d,closed,some (h,s)⟩ xs).entries =
      closed ++ (h,applyAll apply (preamble header xs) s)::
        (sections header xs).map fun one => (one.1,applyAll apply one.2 d) := by
  induction xs generalizing closed h s with
  | nil => rfl
  | cons x xs ih =>
    rw [Machine.run_cons]
    cases found : header x with
    | none =>
      rw [step_current found rfl,ih,preamble_item found,sections_item found,applyAll_cons]
    | some next =>
      rw [step_header found,ih,preamble_header found,sections_header found]
      simp [Outline.entries]

/-- What a run over a list in sections leaves. -/
theorem run_start (s : σ) (xs : List α) :
    (Machine.run (Outline.step header apply) (.start s) xs).entries =
      (sections header xs).map fun one =>
        (one.1,applyAll apply one.2 (applyAll apply (preamble header xs) s)) := by
  induction xs generalizing s with
  | nil => rfl
  | cons x xs ih =>
    rw [Machine.run_cons]
    cases found : header x with
    | none =>
      rw [step_defaults found rfl,preamble_item found,sections_item found,applyAll_cons]
      exact ih (apply x s)
    | some h =>
      rw [step_header found,run_open,preamble_header found,sections_header found]
      rfl

/-- A part of the state that every item either sets or leaves alone is what the last
item that sets it says. -/
theorem view_applyAll (view : σ → β) (value : α → Option β)
    (sets : ∀ x s, view (apply x s) = (value x).getD (view s)) (xs : List α) (s : σ) :
    view (applyAll apply xs s) = ((xs.filterMap value).getLast?).getD (view s) := by
  induction xs generalizing s with
  | nil => rfl
  | cons x xs ih =>
    rw [applyAll_cons,ih,sets,List.filterMap_cons]
    cases value x with
    | none => rfl
    | some v =>
      dsimp only
      rw [List.getLast?_cons]
      rfl

end SerialIp.Library.Sections

import Mathlib.Data.List.DropRight
import Mathlib.Data.List.TakeWhile

/-! Terminated strings in a memory. Pointers are places in a list, and an access
outside the list yields nothing. What an operation does is stated for a memory of
which a part is known. -/
namespace SerialIp.Library.CString
variable {α : Type}

def store (m : List α) (p : Nat) (c : α) : Option (List α) :=
  if p < m.length then some (m.set p c) else none

def forward (going : α → Bool) : List α → Nat → Option Nat
  | [],_ => none
  | c::rest,p => if going c then forward going rest (p + 1) else some p

/-- `while (going(*p)) ++p;` -/
def advance (going : α → Bool) (m : List α) (p : Nat) : Option Nat := forward going (m.drop p) p

/-- `while (going(*p) && len > 0) { --p; --len; }`, which reads once more at the end. -/
def backward (going : α → Bool) (m : List α) : Nat → Nat → Option Nat
  | 0,p => m[p]?.map fun _ => p
  | len + 1,p => do
    let c ← m[p]?
    if going c then
      if p = 0 then none else backward going m len (p - 1)
    else return p

/-- The memory holds these cells at the pointer. -/
def Spans (m : List α) (p : Nat) (cells : List α) : Prop := cells <+: m.drop p

/-- At the pointer the memory holds this string, and its terminator after it. -/
structure Holds (nul : α) (m : List α) (p : Nat) (s : List α) : Prop where
  clean : nul ∉ s
  spans : Spans m p (s ++ [nul])

section
variable {nul : α} {m s cells : List α} {p : Nat} {going : α → Bool}

theorem Spans.left {early late : List α} (spans : Spans m p (early ++ late)) : Spans m p early :=
  (List.prefix_append early late).trans spans

theorem Spans.right {early late : List α} (spans : Spans m p (early ++ late)) :
    Spans m (p + early.length) late := by
  obtain ⟨rest,same⟩ := spans
  refine ⟨rest,?_⟩
  rw [← List.drop_drop,← same,List.append_assoc,List.drop_left]

theorem Spans.head {c : α} (spans : Spans m p (c::cells)) : m[p]? = some c := by
  obtain ⟨rest,same⟩ := spans
  rw [← List.head?_drop,← same]
  rfl

theorem Spans.tail {c : α} (spans : Spans m p (c::cells)) : Spans m (p + 1) cells := by
  have whole : Spans m p ([c] ++ cells) := spans
  exact whole.right

theorem Spans.last {c : α} (spans : Spans m p (cells ++ [c])) : m[p + cells.length]? = some c :=
  spans.right.head

/-- A cell is stored behind what stays. -/
theorem Spans.store {c d : α} {rest : List α} (spans : Spans m p (cells ++ d::rest)) :
    ∃ m', store m (p + cells.length) c = some m' ∧ Spans m' p (cells ++ c::rest) := by
  obtain ⟨inside,_⟩ := List.getElem?_eq_some_iff.mp spans.right.head
  obtain ⟨after,same⟩ := spans
  refine ⟨_,if_pos inside,after,?_⟩
  rw [List.drop_set,if_neg (by omega),← same,Nat.add_sub_cancel_left]
  simp

theorem forward_append (inside : ∀ c ∈ cells, going c = true) {c : α} (stops : going c = false)
    (rest : List α) (p : Nat) : forward going (cells ++ c::rest) p = some (p + cells.length) := by
  induction cells generalizing p with
  | nil =>
    rw [List.nil_append,forward,if_neg (by simp [stops])]
    rfl
  | cons d cells ih =>
    obtain ⟨first,later⟩ := List.forall_mem_cons.mp inside
    rw [List.cons_append,forward,if_pos first,ih later,List.length_cons]
    congr 1
    omega

theorem Spans.advance {c : α} {rest : List α} (spans : Spans m p (cells ++ c::rest))
    (inside : ∀ c ∈ cells, going c = true) (stops : going c = false) :
    advance going m p = some (p + cells.length) := by
  obtain ⟨after,same⟩ := spans
  unfold CString.advance
  rw [← same,List.append_assoc]
  exact forward_append inside stops _ p

/-- The loop backwards from the end of the cells stops at the last that it does not skip. -/
theorem Spans.backward (spans : Spans m p s) (some : s.rdropWhile going ≠ []) :
    backward going m s.length (p + s.length - 1) =
      .some (p + (s.rdropWhile going).length - 1) := by
  induction s using List.reverseRecOn with
  | nil => exact absurd rfl some
  | append_singleton s c ih =>
    have here : m[p + s.length]? = .some c := spans.last
    rw [List.length_append,List.length_singleton,Nat.add_sub_assoc (by omega),Nat.add_sub_cancel,
      CString.backward,here]
    by_cases more : going c = true
    · rw [List.rdropWhile_concat_pos going s c more] at some ⊢
      have nonempty : s ≠ [] := fun empty => some (by rw [empty]; rfl)
      have long := List.length_pos_iff.mpr nonempty
      change (if going c = true then _ else _) = _
      rw [if_pos more,if_neg (by omega)]
      exact ih spans.left some
    · rw [List.rdropWhile_concat_neg going s c more]
      change (if going c = true then _ else _) = _
      rw [if_neg more,List.length_append,List.length_singleton]
      rfl

theorem Holds.right {early late : List α} (holds : Holds nul m p (early ++ late)) :
    Holds nul m (p + early.length) late :=
  ⟨fun member => holds.clean (List.mem_append_right early member),
    (List.append_assoc early late [nul] ▸ holds.spans).right⟩

theorem Holds.head_nil (holds : Holds nul m p []) : m[p]? = some nul := holds.spans.head

theorem Holds.head_cons {c : α} (holds : Holds nul m p (c::s)) : m[p]? = some c := holds.spans.head

/-- A loop that stops at the terminator skips what it may skip of the string. -/
theorem Holds.advance (holds : Holds nul m p s) (stops : going nul = false) :
    advance going m p = some (p + (s.takeWhile going).length) ∧
      Holds nul m (p + (s.takeWhile going).length) (s.dropWhile going) := by
  have cut := List.takeWhile_append_dropWhile (p := going) (l := s)
  rw [← cut] at holds
  refine ⟨?_,holds.right⟩
  have inside : ∀ c ∈ s.takeWhile going, going c = true := fun _ => List.mem_takeWhile_imp
  have spans := holds.spans
  cases left : s.dropWhile going with
  | nil =>
    rw [left,List.append_nil] at spans
    exact spans.advance inside stops
  | cons c rest =>
    rw [left,List.append_assoc] at spans
    have other := List.head?_dropWhile_not going s
    rw [left] at other
    exact spans.advance inside (by simpa using other)

/-- The string is cut short by a terminator. -/
theorem Holds.cut {early late : List α} (holds : Holds nul m p (early ++ late)) :
    ∃ m', store m (p + early.length) nul = some m' ∧ Holds nul m' p early := by
  have clean : nul ∉ early := fun member => holds.clean (List.mem_append_left late member)
  have spans := holds.spans
  rw [List.append_assoc] at spans
  cases late with
  | nil =>
    obtain ⟨m',stored,holds⟩ := spans.store (c := nul)
    exact ⟨m',stored,clean,holds⟩
  | cons c late =>
    obtain ⟨m',stored,holds⟩ := spans.store (c := nul)
    rw [List.append_cons] at holds
    exact ⟨m',stored,clean,holds.left⟩

end

variable [DecidableEq α] (nul : α)

def strlen (m : List α) (p : Nat) : Option Nat := (advance (· ≠ nul) m p).map (· - p)

/-- The inner `none` is the null pointer. -/
def strchr (m : List α) (p : Nat) (c : α) : Option (Option Nat) := do
  let q ← advance (fun x => x ≠ c && x ≠ nul) m p
  return if m[q]? = some c then some q else none

def copied : Nat → List α → Option (List α)
  | 0,_ => some []
  | _ + 1,[] => none
  | n + 1,c::rest =>
    if c = nul then some (List.replicate (n + 1) nul) else (copied n rest).map (c :: ·)

def strncpy (dest m : List α) (p n : Nat) : Option (List α) := do
  let cells ← copied nul n (m.drop p)
  if n ≤ dest.length then return cells ++ dest.drop n else none

def mapped (f : α → α) : List α → Option (List α)
  | [] => none
  | c::rest => if c = nul then some (c::rest) else (mapped f rest).map (f c :: ·)

/-- `for (; *p != nul; ++p) *p = f(*p);` -/
def mapString (f : α → α) (m : List α) (p : Nat) : Option (List α) :=
  (mapped nul f (m.drop p)).map (m.take p ++ ·)

variable {nul} {m s : List α} {p : Nat}

theorem Holds.strlen (holds : Holds nul m p s) : strlen nul m p = some s.length := by
  have inside : ∀ c ∈ s, (c ≠ nul : Bool) = true := fun c member =>
    decide_eq_true fun same => holds.clean (same ▸ member)
  unfold CString.strlen
  rw [holds.spans.advance inside (by simp),Option.map_some,Nat.add_sub_cancel_left]

theorem seek_eq (clean : nul ∉ s) (c : α) :
    s.takeWhile (fun x => x ≠ c && x ≠ nul) = s.takeWhile (· ≠ c) ∧
      s.dropWhile (fun x => x ≠ c && x ≠ nul) = s.dropWhile (· ≠ c) := by
  induction s with
  | nil => exact ⟨rfl,rfl⟩
  | cons d s ih =>
    obtain ⟨first,later⟩ := not_or.mp (mt List.mem_cons.mpr clean)
    obtain ⟨taken,left⟩ := ih later
    by_cases same : d = c
    · simp [same]
    · simp only [List.takeWhile_cons,List.dropWhile_cons,taken,left]
      simp [same,Ne.symm first]

/-- The loop that looks for a byte or the end of the string. -/
theorem Holds.seek (holds : Holds nul m p s) (c : α) :
    CString.advance (fun x => x ≠ c && x ≠ nul) m p = some (p + (s.takeWhile (· ≠ c)).length) ∧
      Holds nul m (p + (s.takeWhile (· ≠ c)).length) (s.dropWhile (· ≠ c)) := by
  obtain ⟨taken,left⟩ := seek_eq holds.clean c
  rw [← taken,← left]
  exact holds.advance (by simp)

theorem Holds.strchr (holds : Holds nul m p s) {c : α} (other : c ≠ nul) :
    strchr nul m p c = some none ∧ s.takeWhile (· ≠ c) = s ∨
      ∃ late, strchr nul m p c = some (some (p + (s.takeWhile (· ≠ c)).length)) ∧
        s = s.takeWhile (· ≠ c) ++ late := by
  obtain ⟨reached,here⟩ := holds.seek c
  have cut : s.takeWhile (· ≠ c) ++ s.dropWhile (· ≠ c) = s := List.takeWhile_append_dropWhile
  unfold CString.strchr
  rw [reached]
  cases left : s.dropWhile (· ≠ c) with
  | nil =>
    rw [left] at here cut
    refine Or.inl ⟨congrArg some (if_neg ?_),by rwa [List.append_nil] at cut⟩
    rw [here.head_nil]
    exact fun same => other (Option.some.inj same).symm
  | cons d late =>
    have found := List.head?_dropWhile_not (· ≠ c) s
    rw [left] at found here cut
    have same : d = c := by simpa using found
    subst same
    exact Or.inr ⟨d::late,congrArg some (if_pos here.head_cons),cut.symm⟩

theorem copied_append (nul : α) (clean : nul ∉ s) {n : Nat} (short : n ≤ s.length) (rest : List α) :
    copied nul n (s ++ rest) = some (s.take n) := by
  induction s generalizing n with
  | nil =>
    obtain rfl := Nat.le_zero.mp short
    rfl
  | cons c s ih =>
    obtain ⟨other,later⟩ := not_or.mp (mt List.mem_cons.mpr clean)
    cases n with
    | zero => rfl
    | succ n =>
      rw [List.cons_append,copied,if_neg (Ne.symm other),ih later (Nat.le_of_succ_le_succ short)]
      rfl

theorem Holds.strncpy (holds : Holds nul m p s) {n : Nat} (short : n ≤ s.length) {dest : List α}
    (fits : n ≤ dest.length) : strncpy nul dest m p n = some (s.take n ++ dest.drop n) := by
  obtain ⟨rest,same⟩ := holds.spans
  unfold CString.strncpy
  rw [← same,List.append_assoc,copied_append nul holds.clean short]
  exact if_pos fits

theorem mapped_append (f : α → α) (clean : nul ∉ s) (rest : List α) :
    mapped nul f (s ++ nul::rest) = some (s.map f ++ nul::rest) := by
  induction s with
  | nil => exact if_pos rfl
  | cons c s ih =>
    obtain ⟨other,later⟩ := not_or.mp (mt List.mem_cons.mpr clean)
    rw [List.cons_append,mapped,if_neg (Ne.symm other),ih later]
    rfl

theorem Holds.mapString (holds : Holds nul m p s) {f : α → α} (keeps : ∀ c, f c = nul → c = nul) :
    ∃ m', mapString nul f m p = some m' ∧ Holds nul m' p (s.map f) := by
  obtain ⟨rest,same⟩ := holds.spans
  rw [List.append_assoc] at same
  obtain ⟨inside,_⟩ := List.getElem?_eq_some_iff.mp holds.spans.last
  refine ⟨m.take p ++ (s.map f ++ nul::rest),?_,?_,rest,?_⟩
  · unfold CString.mapString
    rw [← same]
    change (mapped nul f (s ++ nul::rest)).map _ = _
    rw [mapped_append f holds.clean]
    rfl
  · intro member
    obtain ⟨c,inside,null⟩ := List.mem_map.mp member
    exact holds.clean (keeps c null ▸ inside)
  · have place : (m.take p).length = p := List.length_take_of_le (by omega)
    rw [List.drop_append_of_le_length (by omega),List.drop_of_length_le (by omega),List.nil_append,
      List.append_assoc]
    rfl

end SerialIp.Library.CString

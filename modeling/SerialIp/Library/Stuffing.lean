import Mathlib.Algebra.Ring.Parity
import Mathlib.Data.List.Count
import Mathlib.Data.List.Induction

/-! Stuffing: every occurrence of one marker symbol in a string is doubled, the
other symbols are kept. The encoding behind all in-band command protocols. -/
namespace SerialIp.Library
variable {α : Type} [DecidableEq α]

def stuff (marker : α) : List α → List α
  | [] => []
  | x::xs => if x = marker then marker::marker::stuff marker xs else x::stuff marker xs

@[simp] theorem stuff_nil (marker : α) : stuff marker [] = [] := rfl

@[simp] theorem stuff_marker (marker : α) (xs : List α) :
    stuff marker (marker::xs) = marker::marker::stuff marker xs := by
  simp [stuff]

theorem stuff_other {marker x : α} (different : x ≠ marker) (xs : List α) :
    stuff marker (x::xs) = x::stuff marker xs := by
  simp [stuff,different]

theorem stuff_append (marker : α) (xs ys : List α) :
    stuff marker (xs ++ ys) = stuff marker xs ++ stuff marker ys := by
  induction xs with
  | nil => rfl
  | cons x xs ih =>
    by_cases same : x = marker
    · subst x
      simp [ih]
    · simp [stuff_other same,ih]

theorem stuff_length (marker : α) (xs : List α) :
    (stuff marker xs).length = xs.length + xs.count marker := by
  induction xs with
  | nil => rfl
  | cons x xs ih =>
    by_cases same : x = marker
    · subst x
      simp only [stuff_marker,List.length_cons,ih,List.count_cons_self]
      omega
    · simp only [stuff_other same,List.length_cons,ih,List.count_cons_of_ne same]
      omega

/-- A string that is cut behind `bound` symbols still determines as many of its
stuffed form. -/
theorem stuff_take (marker : α) (xs : List α) {bound limit : Nat} (within : limit ≤ bound) :
    (stuff marker (xs.take bound)).take limit = (stuff marker xs).take limit := by
  by_cases short : xs.length ≤ bound
  · rw [List.take_of_length_le short]
  · have kept : limit ≤ (stuff marker (xs.take bound)).length := by
      rw [stuff_length,List.length_take]
      omega
    conv_rhs => rw [← List.take_append_drop bound xs,stuff_append]
    exact (List.take_append_of_le_length kept).symm

theorem stuff_of_notMem {marker : α} {xs : List α} (absent : marker ∉ xs) :
    stuff marker xs = xs := by
  induction xs with
  | nil => rfl
  | cons x xs ih =>
    simp only [List.mem_cons,not_or] at absent
    rw [stuff_other (Ne.symm absent.1),ih absent.2]

/-- Stuffing leaves a string alone exactly when it holds no marker. -/
theorem stuff_eq_self (marker : α) (xs : List α) : stuff marker xs = xs ↔ marker ∉ xs := by
  refine ⟨?_,stuff_of_notMem⟩
  intro fixed
  have size := stuff_length marker xs
  rw [fixed] at size
  exact List.count_eq_zero.mp (by omega)

theorem stuff_eq_nil (marker : α) (xs : List α) : stuff marker xs = [] ↔ xs = [] := by
  have length := stuff_length marker xs
  rw [← List.length_eq_zero_iff,← List.length_eq_zero_iff]
  have fewer := List.count_le_length (a := marker) (l := xs)
  omega

theorem mem_stuff (marker x : α) (xs : List α) : x ∈ stuff marker xs ↔ x ∈ xs := by
  induction xs with
  | nil => rfl
  | cons y ys ih =>
    by_cases same : y = marker
    · subst y
      simp [ih]
    · simp [stuff_other same,ih]

/-- The decoding: of every pair of markers one goes, a lone marker stays. -/
def unstuff (marker : α) : List α → List α
  | [] => []
  | [x] => [x]
  | x::y::rest =>
    if x = marker ∧ y = marker then marker::unstuff marker rest else x::unstuff marker (y::rest)

@[simp] theorem unstuff_pair (marker : α) (xs : List α) :
    unstuff marker (marker::marker::xs) = marker::unstuff marker xs := by
  rw [unstuff,if_pos ⟨rfl,rfl⟩]

theorem unstuff_lone (marker x : α) {xs : List α} (lone : x = marker → xs.head? ≠ some marker) :
    unstuff marker (x::xs) = x::unstuff marker xs := by
  cases xs with
  | nil => rfl
  | cons y ys =>
    rw [unstuff,if_neg]
    intro both
    obtain ⟨rfl,rfl⟩ := both
    exact lone rfl rfl

theorem unstuff_append {marker : α} {xs : List α} (absent : marker ∉ xs) (ys : List α) :
    unstuff marker (xs ++ ys) = xs ++ unstuff marker ys := by
  induction xs with
  | nil => rfl
  | cons x xs ih =>
    simp only [List.mem_cons,not_or] at absent
    rw [List.cons_append,unstuff_lone marker x (fun same => absurd same.symm absent.1),ih absent.2]
    rfl

theorem unstuff_of_notMem {marker : α} {xs : List α} (absent : marker ∉ xs) :
    unstuff marker xs = xs := by
  have split := unstuff_append absent []
  simpa [unstuff] using split

theorem unstuff_stuff_append (marker : α) (xs ys : List α) :
    unstuff marker (stuff marker xs ++ ys) = xs ++ unstuff marker ys := by
  induction xs with
  | nil => rfl
  | cons x xs ih =>
    by_cases same : x = marker
    · subst x
      rw [stuff_marker,List.cons_append,List.cons_append,unstuff_pair,ih]
      rfl
    · rw [stuff_other same,List.cons_append,unstuff_lone marker x (fun equal => absurd equal same),ih]
      rfl

theorem unstuff_stuff (marker : α) (xs : List α) : unstuff marker (stuff marker xs) = xs := by
  have undone := unstuff_stuff_append marker xs []
  simpa [unstuff] using undone

/-- How many markers the string ends in. -/
def markerRun (marker : α) (xs : List α) : Nat := (xs.reverse.takeWhile (· = marker)).length

@[simp] theorem markerRun_marker (marker : α) (xs : List α) :
    markerRun marker (xs ++ [marker]) = markerRun marker xs+1 := by
  simp [markerRun]

@[simp] theorem markerRun_other {marker x : α} (different : x ≠ marker) (xs : List α) :
    markerRun marker (xs ++ [x]) = 0 := by
  simp [markerRun,different]

theorem markerRun_stuff (marker : α) (xs : List α) : Even (markerRun marker (stuff marker xs)) := by
  induction xs using List.reverseRecOn with
  | nil => exact Even.zero
  | append_singleton xs x ih =>
    rw [stuff_append]
    by_cases same : x = marker
    · subst x
      have pair : stuff marker xs ++ stuff marker [marker] = stuff marker xs ++ [marker] ++ [marker] := by
        simp
      rw [pair,markerRun_marker,markerRun_marker]
      exact ih.add_one.add_one
    · rw [stuff_other same,stuff_nil,markerRun_other same]
      exact Even.zero

/-- A stuffed string that is cut is the stuffed form of a prefix, unless the cut lies
between the two markers of a pair. -/
theorem stuff_take_iff (marker : α) (xs : List α) (limit : Nat) :
    (∃ ys, ys <+: xs ∧ (stuff marker xs).take limit = stuff marker ys) ↔
      ¬∃ before after, xs = before ++ marker::after ∧ (stuff marker before).length+1 = limit := by
  constructor
  · intro cut pair
    obtain ⟨ys,_,same⟩ := cut
    obtain ⟨before,after,rfl,rfl⟩ := pair
    have odd : (stuff marker (before ++ marker::after)).take ((stuff marker before).length+1) =
        stuff marker before ++ [marker] := by
      rw [stuff_append,stuff_marker,List.take_length_add_append]
      rfl
    rw [odd] at same
    have run := markerRun_stuff marker ys
    rw [← same,markerRun_marker] at run
    exact Nat.not_even_iff_odd.mpr (markerRun_stuff marker before).add_one run
  · intro whole
    induction xs generalizing limit with
    | nil => exact ⟨[],List.prefix_rfl,List.take_nil⟩
    | cons x xs ih =>
      by_cases same : x = marker
      · subst x
        rw [stuff_marker]
        match limit with
        | 0 => exact ⟨[],List.nil_prefix,rfl⟩
        | 1 => exact absurd ⟨[],xs,rfl,rfl⟩ whole
        | limit+2 =>
          obtain ⟨ys,front,cut⟩ := ih limit (by
            intro pair
            obtain ⟨before,after,rfl,behind⟩ := pair
            refine whole ⟨marker::before,after,rfl,?_⟩
            rw [stuff_marker,List.length_cons,List.length_cons]
            omega)
          refine ⟨marker::ys,List.cons_prefix_cons.mpr ⟨rfl,front⟩,?_⟩
          rw [stuff_marker,List.take_succ_cons,List.take_succ_cons,cut]
      · rw [stuff_other same]
        match limit with
        | 0 => exact ⟨[],List.nil_prefix,rfl⟩
        | limit+1 =>
          obtain ⟨ys,front,cut⟩ := ih limit (by
            intro pair
            obtain ⟨before,after,rfl,behind⟩ := pair
            refine whole ⟨x::before,after,rfl,?_⟩
            rw [stuff_other same,List.length_cons]
            omega)
          refine ⟨x::ys,List.cons_prefix_cons.mpr ⟨rfl,front⟩,?_⟩
          rw [stuff_other same,List.take_succ_cons,cut]

end SerialIp.Library

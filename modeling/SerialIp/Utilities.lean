import SerialIp.Library.Block

/-! The byte search of utilities.c. A C string position is an offset into the
block it points to; `NULL` is `none`. -/
namespace SerialIp
open Library

def mystrchrLoop (m : Block UInt8) (ch : UInt8) : Int → Nat → Option Int
  | _,0 => none
  | s,size+1 => if m.cell s = ch then some s else mystrchrLoop m ch (s+1) size

/-- The first `ch` among the `size` bytes at `s`; a negative size is empty. -/
def mystrchr (m : Block UInt8) (s : Int) (ch : UInt8) (size : Int) : Option Int :=
  mystrchrLoop m ch s size.toNat

def mystrchrLoopReads (m : Block UInt8) (ch : UInt8) : Int → Nat → List Int
  | _,0 => []
  | s,size+1 => s::if m.cell s = ch then [] else mystrchrLoopReads m ch (s+1) size

/-- The offsets that the search looks at: up to the first `ch`. -/
def mystrchrReads (m : Block UInt8) (s : Int) (ch : UInt8) (size : Int) : List Int :=
  mystrchrLoopReads m ch s size.toNat

private theorem loop_none (m : Block UInt8) (ch : UInt8) (s : Int) (size : Nat)
    (absent : ch ∉ m.read s size) : mystrchrLoop m ch s size = none := by
  induction size generalizing s with
  | zero => rfl
  | succ size ih =>
    simp only [Block.read,List.mem_cons,not_or] at absent
    rw [mystrchrLoop,if_neg (Ne.symm absent.1),ih _ absent.2]

private theorem loop_first (m : Block UInt8) (ch : UInt8) (s : Int) (size : Nat)
    (before after : List UInt8) (content : m.read s size = before ++ ch::after)
    (absent : ch ∉ before) : mystrchrLoop m ch s size = some (s+before.length) := by
  induction before generalizing s size with
  | nil =>
    cases size with
    | zero => simp [Block.read] at content
    | succ size =>
      simp only [Block.read,List.nil_append,List.cons.injEq] at content
      simp [mystrchrLoop,content.1]
  | cons x before ih =>
    cases size with
    | zero => simp [Block.read] at content
    | succ size =>
      simp only [Block.read,List.cons_append,List.cons.injEq] at content
      simp only [List.mem_cons,not_or] at absent
      have different : m.cell s ≠ ch := by rw [content.1]; exact Ne.symm absent.1
      rw [mystrchrLoop,if_neg different,ih _ _ content.2 absent.2]
      simp only [List.length_cons,Option.some.injEq]
      omega

theorem mystrchr_none {m : Block UInt8} {s : Int} {ch : UInt8} {size : Int}
    (absent : ch ∉ m.read s size.toNat) : mystrchr m s ch size = none :=
  loop_none m ch s _ absent

theorem mystrchr_first {m : Block UInt8} {s : Int} {ch : UInt8} {size : Int}
    {before after : List UInt8} (content : m.read s size.toNat = before ++ ch::after)
    (absent : ch ∉ before) : mystrchr m s ch size = some (s+before.length) :=
  loop_first m ch s _ before after content absent

theorem mystrchr_missing {m : Block UInt8} {s : Int} {ch : UInt8} {size : Int}
    (missing : mystrchr m s ch size = none) : ch ∉ m.read s size.toNat := by
  intro present
  obtain ⟨before,after,content,absent⟩ := List.eq_append_cons_of_mem present
  rw [mystrchr_first content absent] at missing
  contradiction

theorem mystrchr_some {m : Block UInt8} {s : Int} {ch : UInt8} {size i : Int}
    (found : mystrchr m s ch size = some i) :
    ∃ before after, m.read s size.toNat = before ++ ch::after ∧ ch ∉ before ∧
      i = s+before.length := by
  by_cases present : ch ∈ m.read s size.toNat
  · obtain ⟨before,after,content,absent⟩ := List.eq_append_cons_of_mem present
    have located := mystrchr_first content absent
    exact ⟨before,after,content,absent,Option.some.inj (found.symm.trans located)⟩
  · rw [mystrchr_none present] at found
    contradiction

/-- The search finds the first `ch`, or nothing if there is none. -/
theorem mystrchr_eq (m : Block UInt8) (s : Int) (ch : UInt8) (size : Int) :
    mystrchr m s ch size = ((m.read s size.toNat).idxOf? ch).map fun k : Nat => s+k := by
  cases found : mystrchr m s ch size with
  | none => rw [List.idxOf?_eq_none_iff.mpr (mystrchr_missing found),Option.map_none]
  | some i =>
    obtain ⟨before,after,content,absent,rfl⟩ := mystrchr_some found
    have first : (before ++ ch::after).idxOf? ch = some before.length := by
      refine List.idxOf?_eq_some_iff.mpr ⟨by simp,by simp,fun j early same => absent ?_⟩
      rw [List.getElem_append_left early] at same
      exact same ▸ List.getElem_mem early
    rw [content,first,Option.map_some]

theorem mystrchr_bounds {m : Block UInt8} {s : Int} {ch : UInt8} {size i : Int}
    (found : mystrchr m s ch size = some i) : s ≤ i ∧ i < s+size ∧ m.cell i = ch := by
  obtain ⟨before,after,content,_,rfl⟩ := mystrchr_some found
  have length := congrArg List.length content
  simp only [Block.read_length,List.length_append,List.length_cons] at length
  exact ⟨by omega,by omega,Block.cell_of_read m content⟩

theorem mystrchrReads_bounds {m : Block UInt8} {s : Int} {ch : UInt8} {size i : Int}
    (member : i ∈ mystrchrReads m s ch size) : s ≤ i ∧ i < s+size := by
  have loop (n : Nat) (s : Int) (member : i ∈ mystrchrLoopReads m ch s n) : s ≤ i ∧ i < s+n := by
    induction n generalizing s with
    | zero => exact absurd member List.not_mem_nil
    | succ n ih =>
      rw [mystrchrLoopReads] at member
      rcases List.mem_cons.mp member with rfl | later
      · omega
      · split at later
        · exact absurd later List.not_mem_nil
        · have bounds := ih _ later
          omega
  have bounds := loop _ _ member
  omega

/-- The search depends on nothing but what it looks at. -/
theorem mystrchr_congr {m other : Block UInt8} {s : Int} {ch : UInt8} {size : Int}
    (same : ∀ i ∈ mystrchrReads m s ch size, m.cell i = other.cell i) :
    mystrchr m s ch size = mystrchr other s ch size := by
  have loop (n : Nat) (s : Int) (same : ∀ i ∈ mystrchrLoopReads m ch s n, m.cell i = other.cell i) :
      mystrchrLoop m ch s n = mystrchrLoop other ch s n := by
    induction n generalizing s with
    | zero => rfl
    | succ n ih =>
      simp only [mystrchrLoopReads,List.forall_mem_cons] at same
      obtain ⟨first,later⟩ := same
      rw [mystrchrLoop,mystrchrLoop,← first]
      split
      · rfl
      · rename_i different
        rw [if_neg different] at later
        exact ih _ later
  exact loop _ _ same

end SerialIp

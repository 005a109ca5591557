import SerialIp.BufferRuns

/-! bfrmstr against what it is asked to do. Its first test compares the amount with the
whole content instead of the part from the pointer on. What it has closed up stays behind
`readp`, where bfstrchr looks at one byte when it has found nothing. -/
namespace SerialIp.Buffer
open Library

/-- From `ptr` on, `nbytes` bytes are gone, or all there are; the rest has closed up, and
the count of the bytes removed comes back. -/
structure Removes (b : Buffer) (ptr nbytes : Int) : Prop where
  content : (bfrmstr b ptr nbytes).2.content = b.content.take (ptr-b.writep).toNat ++
    b.content.drop ((ptr-b.writep)+min nbytes (b.readp-ptr)).toNat
  count : (bfrmstr b ptr nbytes).1 = min nbytes (b.readp-ptr)
  invariant : Invariant (bfrmstr b ptr nbytes).2

theorem bfrmstr_clamped {b : Buffer} {ptr nbytes : Int} (part : nbytes < b.nbuffered) :
    bfrmstr b ptr nbytes = bfrmstr b ptr (min nbytes (b.readp-ptr)) := by
  unfold bfrmstr
  rw [if_neg (not_le.mpr part),if_neg (not_le.mpr (lt_of_le_of_lt (min_le_left _ _) part)),
    if_neg (not_lt.mpr (min_le_right nbytes (b.readp-ptr)))]
  have amount : (if nbytes > b.readp-ptr then b.readp-ptr else nbytes) = min nbytes (b.readp-ptr) := by
    split
    · omega
    · omega
  rw [amount]

theorem removes_part {b : Buffer} {ptr nbytes : Int} (invariant : Invariant b)
    (inside : b.writep ≤ ptr ∧ ptr ≤ b.readp) (given : 0 ≤ nbytes) (part : nbytes < b.nbuffered) :
    Removes b ptr nbytes := by
  have counted := invariant.counted
  have holds := invariant.toValid.holds
  have size : (b.content.length : Int) = b.readp-b.writep := by
    rw [← holds.counted,counted]
  obtain ⟨k,place⟩ : ∃ k : Nat, ptr = b.writep+k := ⟨(ptr-b.writep).toNat,by omega⟩
  obtain ⟨m,least⟩ : ∃ m : Nat, min nbytes (b.readp-ptr) = m :=
    ⟨(min nbytes (b.readp-ptr)).toNat,by omega⟩
  have split : b.content = b.content.take k ++
      ((b.content.drop k).take m ++ b.content.drop (k+m)) := by
    rw [← List.drop_drop,List.take_append_drop,List.take_append_drop]
  have before : (b.content.take k).length = k := by
    rw [List.length_take]
    omega
  have middle : ((b.content.drop k).take m).length = m := by
    rw [List.length_take,List.length_drop]
    omega
  have pieces : Holds b b.writep (b.content.take k ++
      ((b.content.drop k).take m ++ b.content.drop (k+m))) := by
    rw [← split]
    exact holds
  obtain ⟨count,after⟩ := bfrmstr_part pieces (by rw [← split,middle]; omega)
  rw [before,middle,← place,← least,← bfrmstr_clamped part] at count after
  refine ⟨?_,count,invariant.remove given⟩
  rw [after.content_eq,least,show (ptr-b.writep).toNat = k by omega,
    show (ptr-b.writep+m).toNat = k+m by omega]

/-- The removal is right as long as it leaves a byte, or takes the whole content and no
more from its beginning. -/
theorem removes_iff (b : Buffer) (ptr nbytes : Int) (invariant : Invariant b)
    (inside : b.writep ≤ ptr ∧ ptr ≤ b.readp) (given : 0 ≤ nbytes) :
    Removes b ptr nbytes ↔ nbytes < b.nbuffered ∨ nbytes = b.nbuffered ∧ ptr = b.writep := by
  have counted := invariant.counted
  have holds := invariant.toValid.holds
  by_cases part : nbytes < b.nbuffered
  · exact iff_of_true (removes_part invariant inside given part) (Or.inl part)
  · have all : bfrmstr b ptr nbytes = (nbytes,bfinit b) :=
      bfrmstr_all holds (by have stops := holds.stops; omega) (by have size := holds.counted; omega)
    constructor
    · intro removes
      have count := removes.count
      rw [all] at count
      dsimp only at count
      right
      omega
    · intro exact
      obtain ⟨whole,first⟩ := exact.resolve_left part
      refine ⟨?_,?_,invariant.remove given⟩
      · have none : b.content.drop (ptr-b.writep+min nbytes (b.readp-ptr)).toNat = [] := by
          have size := holds.counted
          apply List.drop_eq_nil_of_le
          omega
        rw [all,none,(bfinit_holds b).content_eq,show (ptr-b.writep).toNat = 0 by omega]
        rfl
      · rw [all]
        dsimp only
        omega

/-- Two of three bytes from the second on. -/
theorem removes_iff_middle : Removes (bfstrcat (bfmalloc 8) [65,66,67]).2 1 2 := by
  have invariant : Invariant (bfstrcat (bfmalloc 8) [65,66,67]).2 :=
    ⟨⟨by decide,by decide,by decide,by decide,by decide⟩,by decide⟩
  exact (removes_iff _ 1 2 invariant (by decide) (by decide)).mpr (by decide)

/-- Three bytes of a command that has only two of them, behind one byte of data. -/
theorem data_before_command_removed : ¬∀ (b : Buffer) (ptr nbytes : Int), Invariant b →
    b.writep ≤ ptr ∧ ptr ≤ b.readp → 0 ≤ nbytes → Removes b ptr nbytes := by
  intro always
  have invariant : Invariant (bfstrcat (bfmalloc 8) [65,255,251]).2 :=
    ⟨⟨by decide,by decide,by decide,by decide,by decide⟩,by decide⟩
  have removes := always _ 1 3 invariant (by decide) (by decide)
  exact absurd removes.content (by decide)

/-- bfstrchr and mystrchr both come to the first `ch` of the content, or to NULL. -/
def SearchesAgree (b : Buffer) (ch : UInt8) : Prop :=
  bfstrchr b ch = mystrchr b.mem b.writep ch b.nbuffered ∧
    bfstrchr b ch = (b.content.idxOf? ch).map fun k : Nat => b.writep+k

/-- The searches agree exactly where the byte at `readp` does not pass for a find. -/
theorem searches_agree_iff (b : Buffer) (ch : UInt8) (valid : Valid b) :
    SearchesAgree b ch ↔ ch ∈ b.content ∨ b.mem.cell b.readp ≠ ch := by
  have first := valid.search ch
  unfold SearchesAgree
  rw [← first,and_self,bfstrchr_eq valid.counted valid.ordered]
  cases found : mystrchr b.mem b.writep ch b.nbuffered with
  | some i =>
    rw [found] at first
    have present : ch ∈ b.content := by
      rw [← List.isSome_idxOf?,← Option.isSome_map,← first]
      rfl
    exact iff_of_true rfl (Or.inl present)
  | none =>
    have absent : ch ∉ b.content :=
      List.idxOf?_eq_none_iff.mp (Option.map_eq_none_iff.mp (first.symm.trans found))
    rw [Option.none_or,or_iff_right absent]
    by_cases stale : b.mem.cell b.readp = ch
    · rw [if_pos stale]
      exact iff_of_false nofun (not_not.mpr stale)
    · rw [if_neg stale]
      exact iff_of_true rfl stale

theorem searches_agree_iff_data : SearchesAgree (bfstrcat (bfmalloc 8) [65,255,251]).2 255 :=
  (searches_agree_iff _ 255 ⟨by decide,by decide,by decide,by decide,by decide⟩).mpr
    (Or.inl (by decide))

/-- A command behind one byte of data has been removed, and its IAC is still found. -/
theorem removed_command_found : ¬∀ (b : Buffer) (ch : UInt8), Invariant b → SearchesAgree b ch := by
  intro always
  have invariant : Invariant (bfrmstr (bfstrcat (bfmalloc 8) [65,255,251,1]).2 1 3).2 :=
    ⟨⟨by decide,by decide,by decide,by decide,by decide⟩,by decide⟩
  exact absurd (always _ 255 invariant).1 (by decide)

end SerialIp.Buffer

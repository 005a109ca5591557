import Mathlib.Data.BitVec

/-! Fields of one machine word. A field is given by its mask; clearing or setting
bits outside a mask leaves what is read through it. -/
namespace SerialIp.Library.Mask
variable {w : Nat} {mask bits : BitVec w}

/-- The two words hold the same field. -/
def AgreeOn (mask a b : BitVec w) : Prop := a &&& mask = b &&& mask

theorem AgreeOn.refl (mask a : BitVec w) : AgreeOn mask a a := rfl

theorem AgreeOn.trans {a b c : BitVec w} (first : AgreeOn mask a b) (second : AgreeOn mask b c) :
    AgreeOn mask a c :=
  Eq.trans first second

theorem agreeOn_clear (apart : bits &&& mask = 0) (a : BitVec w) :
    AgreeOn mask (a &&& ~~~bits) a := by
  have outside : ~~~bits &&& mask = mask := by
    apply BitVec.eq_of_getLsbD_eq
    intro i bound
    have bit := congrArg (fun word => word.getLsbD i) apart
    simp only [BitVec.getLsbD_and,BitVec.getLsbD_not] at bit ⊢
    cases low : bits.getLsbD i <;> simp_all
  unfold AgreeOn
  rw [BitVec.and_assoc,outside]

theorem agreeOn_set (apart : bits &&& mask = 0) (a : BitVec w) :
    AgreeOn mask (a ||| bits) a := by
  unfold AgreeOn
  rw [BitVec.and_or_distrib_right,apart]
  exact BitVec.or_zero

theorem and_cleared (mask a : BitVec w) : a &&& ~~~mask &&& mask = 0 := by
  apply BitVec.eq_of_getLsbD_eq
  intro i bound
  simp only [BitVec.getLsbD_and,BitVec.getLsbD_not]
  cases mask.getLsbD i <;> simp

theorem and_raised (mask a : BitVec w) : (a ||| mask) &&& mask = mask := by
  apply BitVec.eq_of_getLsbD_eq
  intro i bound
  simp only [BitVec.getLsbD_and,BitVec.getLsbD_or]
  cases mask.getLsbD i <;> simp

theorem and_stored (inside : bits &&& mask = bits) (a : BitVec w) :
    (a &&& ~~~mask ||| bits) &&& mask = bits := by
  rw [BitVec.and_or_distrib_right,and_cleared,inside]
  exact BitVec.zero_or

end SerialIp.Library.Mask

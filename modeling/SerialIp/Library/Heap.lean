import Mathlib.Algebra.Order.Group.Multiset
import SerialIp.Library.Program

/-! Programs that allocate, use and free blocks of memory, where an allocation may fail.
What a program is given and what it leaves are multisets of blocks, and a triple holds
beside whatever else there is. -/
namespace SerialIp.Library
open Program

inductive HeapCall
  | malloc (granted : Bool)
  | free (block : Nat)
  | touch (block : Nat)

def HeapCall.Result : HeapCall → Type
  | malloc _ => Option Nat
  | free _ | touch _ => Unit

/-- `sound` falls with the first block that is freed or used without being there. -/
structure Heap where
  live : List Nat
  fresh : Nat
  sound : Bool

abbrev Allocating (α : Type) := Program HeapCall HeapCall.Result α

def malloc (granted : Bool) : Allocating (Option Nat) := invoke (HeapCall.malloc granted)

def free (block : Nat) : Allocating Unit := invoke (HeapCall.free block)

def touch (block : Nat) : Allocating Unit := invoke (HeapCall.touch block)

/-- `free` of a pointer that may be NULL. -/
def release : Option Nat → Allocating Unit
  | none => return
  | some block => free block

namespace Heap

def empty : Heap := ⟨[],0,true⟩

def allocate (granted : Bool) (h : Heap) : Option Nat × Heap :=
  if granted then (some h.fresh,{h with live := h.fresh::h.live, fresh := h.fresh + 1}) else (none,h)

def dispose (block : Nat) (h : Heap) : Heap :=
  if block ∈ h.live then {h with live := h.live.erase block} else {h with sound := false}

def visit (block : Nat) (h : Heap) : Heap := if block ∈ h.live then h else {h with sound := false}

def act : (c : HeapCall) → Heap → c.Result × Heap
  | .malloc granted,h => h.allocate granted
  | .free block,h => ((),h.dispose block)
  | .touch block,h => ((),h.visit block)

variable {α β : Type}

def run (program : Allocating α) (h : Heap) : α × Heap := program.execute act h

/-- The blocks of the heap are these, each once. -/
structure Consists (h : Heap) (blocks : Multiset Nat) : Prop where
  sound : h.sound = true
  live : (h.live : Multiset Nat) = blocks
  nodup : blocks.Nodup
  below : ∀ block ∈ blocks, block < h.fresh

/-- From `pre` the program comes to `post` with what it leaves, and does nothing to the rest. -/
def Carries (pre : Multiset Nat) (program : Allocating α) (post : α → Multiset Nat → Prop) : Prop :=
  ∀ h rest, Consists h (pre + rest) →
    ∃ left, post (run program h).1 left ∧ Consists (run program h).2 (left + rest)

def owned (pointer : Option Nat) : Multiset Nat := pointer.toList

@[simp] theorem owned_none : owned none = 0 := rfl

@[simp] theorem owned_some (block : Nat) : owned (some block) = {block} := rfl

theorem owned_card (pointer : Option Nat) : (owned pointer).card = pointer.isSome.toNat := by
  cases pointer <;> rfl

theorem empty_consists : Consists empty 0 := ⟨rfl,rfl,Multiset.nodup_zero,nofun⟩

section
variable {pre : Multiset Nat} {h : Heap}

theorem Consists.member {block : Nat} {rest : Multiset Nat} (has : Consists h ({block} + rest)) : block ∈ h.live := by
  have inside : block ∈ (h.live : Multiset Nat) := has.live ▸ Multiset.mem_cons_self block rest
  exact inside

theorem Consists.congr {b : Multiset Nat} (has : Consists h pre) (same : pre = b) : Consists h b := same ▸ has

theorem Carries.done {post : α → Multiset Nat → Prop} {value : α} (now : post value pre) :
    Carries pre (pure value) post :=
  fun _ _ has => ⟨pre,now,has⟩

theorem run_bind (first : Allocating α) (second : α → Allocating β) (h : Heap) :
    run (first >>= second) h = run (second (run first h).1) (run first h).2 :=
  execute_bind rfl

theorem Carries.bind {mid : α → Multiset Nat → Prop} {post : β → Multiset Nat → Prop}
    {first : Allocating α} {second : α → Allocating β} (begins : Carries pre first mid)
    (rest : ∀ value left, mid value left → Carries left (second value) post) :
    Carries pre (first >>= second) post := by
  intro h others has
  obtain ⟨left,reached,still⟩ := begins h others has
  rw [run_bind]
  exact rest _ left reached _ others still

theorem Carries.mono {post weaker : α → Multiset Nat → Prop} {program : Allocating α}
    (carries : Carries pre program post) (enough : ∀ value left, post value left → weaker value left) :
    Carries pre program weaker := by
  intro h rest has
  obtain ⟨left,reached,still⟩ := carries h rest has
  exact ⟨left,enough _ left reached,still⟩

/-- What the program is not given it does not see. -/
theorem Carries.beside {post : α → Multiset Nat → Prop} {program : Allocating α}
    (carries : Carries pre program post) (kept : Multiset Nat) :
    Carries (pre + kept) program fun value left => ∃ own, post value own ∧ left = own + kept := by
  intro h rest has
  rw [add_assoc] at has
  obtain ⟨left,reached,still⟩ := carries h (kept + rest) has
  rw [← add_assoc] at still
  exact ⟨left + kept,⟨left,reached,rfl⟩,still⟩

theorem Carries.foldlM {step : β → α → Allocating β} {kept : β → Multiset Nat → Prop}
    (each : ∀ x value left, kept value left → Carries left (step value x) kept) {start : β}
    (now : kept start pre) (xs : List α) : Carries pre (xs.foldlM step start) kept := by
  induction xs generalizing start pre with
  | nil => exact .done now
  | cons x xs ih => exact .bind (each x start pre now) fun value left reached => ih reached

/-- One part of what there is after the other, each by a program that sees no other part. -/
theorem carries_forEach {xs : List α} {own k : α → Multiset Nat} {program : α → Allocating Unit}
    (each : ∀ x ∈ xs, Carries (own x) (program x) fun _ left => left = k x) :
    Carries (xs.map own).sum (xs.foldlM (fun _ x => program x) ()) fun _ left =>
      left = (xs.map k).sum := by
  induction xs with
  | nil => exact .done rfl
  | cons x xs ih =>
    obtain ⟨one,others⟩ := List.forall_mem_cons.mp each
    refine ((one.beside _).bind fun _ left reached => ?_)
    obtain ⟨_,rfl,rfl⟩ := reached
    rw [add_comm]
    refine ((ih others).beside (k x)).mono fun _ left reached => ?_
    obtain ⟨_,rfl,rfl⟩ := reached
    rw [add_comm]
    rfl

theorem carries_malloc (granted : Bool) : Carries 0 (malloc granted) fun pointer left =>
    left = owned pointer ∧ pointer.isSome = granted := by
  intro h rest has
  rw [zero_add] at has
  cases granted with
  | false =>
    refine ⟨0,⟨rfl,rfl⟩,?_⟩
    rw [zero_add]
    exact has
  | true =>
    refine ⟨{h.fresh},⟨rfl,rfl⟩,has.sound,?_,?_,?_⟩
    · exact congrArg (h.fresh ::ₘ ·) has.live
    · refine Multiset.nodup_cons.mpr ⟨fun member => ?_,has.nodup⟩
      exact Nat.lt_irrefl _ (has.below _ member)
    · intro block member
      obtain rfl | old := Multiset.mem_cons.mp member
      · exact Nat.lt_succ_self _
      · exact Nat.lt_succ_of_lt (has.below block old)

theorem carries_free (block : Nat) : Carries {block} (free block) fun _ left => left = 0 := by
  intro h rest has
  have after : (run (free block) h).2 = {h with live := h.live.erase block} := if_pos has.member
  refine ⟨0,rfl,?_⟩
  rw [after,zero_add]
  refine ⟨has.sound,?_,(Multiset.nodup_cons.mp has.nodup).2,?_⟩
  · change ((h.live.erase block : List Nat) : Multiset Nat) = rest
    rw [← Multiset.coe_erase,has.live]
    exact Multiset.erase_cons_head block rest
  · exact fun other inside => has.below other (Multiset.mem_cons_of_mem inside)

theorem carries_release (pointer : Option Nat) :
    Carries (owned pointer) (release pointer) fun _ left => left = 0 := by
  cases pointer with
  | none => exact .done rfl
  | some block => exact carries_free block

theorem carries_touch (block : Nat) : Carries {block} (touch block) fun _ left => left = {block} := by
  intro h rest has
  have after : (run (touch block) h).2 = h := if_pos has.member
  refine ⟨{block},rfl,?_⟩
  rw [after]
  exact has

end

/-- The heap has had the block and has it no more. -/
def Gone (block : Nat) (h : Heap) : Prop := block ∉ h.live ∧ block < h.fresh

theorem act_gone {block : Nat} {h : Heap} (gone : Gone block h) (c : HeapCall) :
    Gone block (act c h).2 := by
  obtain ⟨absent,old⟩ := gone
  cases c with
  | malloc granted =>
    change Gone block (h.allocate granted).2
    unfold allocate
    split
    · refine ⟨fun member => ?_,Nat.lt_succ_of_lt old⟩
      obtain rfl | inside := List.mem_cons.mp member
      · exact Nat.lt_irrefl _ old
      · exact absent inside
    · exact ⟨absent,old⟩
  | free other =>
    change Gone block (h.dispose other)
    unfold dispose
    split
    · exact ⟨fun member => absent (List.mem_of_mem_erase member),old⟩
    · exact ⟨absent,old⟩
  | touch other =>
    change Gone block (h.visit other)
    unfold visit
    split
    · exact ⟨absent,old⟩
    · exact ⟨absent,old⟩

theorem act_unsound {h : Heap} (unsound : h.sound = false) (c : HeapCall) :
    (act c h).2.sound = false := by
  cases c with
  | malloc granted =>
    change (h.allocate granted).2.sound = false
    unfold allocate
    split <;> exact unsound
  | free other =>
    change (h.dispose other).sound = false
    unfold dispose
    split
    · exact unsound
    · rfl
  | touch other =>
    change (h.visit other).sound = false
    unfold visit
    split
    · exact unsound
    · rfl

/-- What no call undoes, no program undoes. -/
theorem run_keeps (kept : Heap → Prop) (acts : ∀ c h, kept h → kept (act c h).2) (program : Allocating α)
    {h : Heap} (now : kept h) : kept (run program h).2 := by
  induction program generalizing h with
  | done value => exact now
  | call c next ih => exact ih _ (acts c h now)

theorem run_gone {block : Nat} {h : Heap} (gone : Gone block h) (program : Allocating α) :
    Gone block (run program h).2 :=
  run_keeps (Gone block) (fun c _ gone => act_gone gone c) program gone

theorem run_unsound {h : Heap} (unsound : h.sound = false) (program : Allocating α) :
    (run program h).2.sound = false :=
  run_keeps (fun h => h.sound = false) (fun c _ unsound => act_unsound unsound c) program unsound

theorem act_fresh {bound : Nat} {h : Heap} (below : bound < h.fresh) (c : HeapCall) :
    bound < (act c h).2.fresh := by
  cases c with
  | malloc granted =>
    change bound < (h.allocate granted).2.fresh
    unfold allocate
    split
    · exact Nat.lt_succ_of_lt below
    · exact below
  | free other =>
    change bound < (h.dispose other).fresh
    unfold dispose
    split <;> exact below
  | touch other =>
    change bound < (h.visit other).fresh
    unfold visit
    split <;> exact below

/-- A program that leaves nothing of a block has let it go. -/
theorem Consists.gone {block : Nat} {others left : Multiset Nat} {h : Heap} {program : Allocating α}
    (before : Consists h ({block} + others)) (after : Consists (run program h).2 left) (less : left ≤ others) :
    Gone block (run program h).2 := by
  refine ⟨fun member => ?_,?_⟩
  · have inside : block ∈ left := after.live ▸ Multiset.mem_coe.mpr member
    exact (Multiset.nodup_cons.mp before.nodup).1 (Multiset.mem_of_le less inside)
  · exact run_keeps (block < ·.fresh) (fun c _ below => act_fresh below c) program
      (before.below block (Multiset.mem_cons_self block others))

/-- A block that has gone is not used again without harm. -/
theorem run_touch_gone {block : Nat} {h : Heap} (gone : Gone block h) :
    (run (touch block) h).2.sound = false := by
  change (h.visit block).sound = false
  unfold visit
  rw [if_neg gone.1]

end Heap
end SerialIp.Library

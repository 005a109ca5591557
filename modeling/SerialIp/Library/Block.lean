import Mathlib.Algebra.Order.Ring.Int
import Mathlib.Data.List.Basic

/-! A block of memory addressed by signed offsets from its first cell. Stores
are total: each one also enters its offset in a log, so that a store outside
the intended bounds stays visible afterwards instead of being undefined. -/
namespace SerialIp.Library

structure Block (α : Type) where
  cell : Int → α
  stores : List Int

namespace Block
variable {α : Type}

def store (m : Block α) (i : Int) (value : α) : Block α :=
  ⟨Function.update m.cell i value,i::m.stores⟩

def copy : Block α → Int → List α → Block α
  | m,_,[] => m
  | m,i,value::rest => copy (m.store i value) (i+1) rest

def read (m : Block α) : Int → Nat → List α
  | _,0 => []
  | i,n+1 => m.cell i::m.read (i+1) n

/-- The `n` offsets from `i` on, those that `read` looks at. -/
def span (i : Int) (n : Nat) : List Int := (List.range n).map fun k : Nat => i+k

/-- Moves the `n` cells at `p` one place up, the last one first. -/
def shiftRight : Block α → Int → Nat → Block α
  | m,_,0 => m
  | m,p,n+1 => shiftRight (m.store (p+n+1) (m.cell (p+n))) p n

/-- Moves the `n` cells at `source` to `target`, the first one first. -/
def shiftLeft : Block α → Int → Int → Nat → Block α
  | m,_,_,0 => m
  | m,target,source,n+1 => shiftLeft (m.store target (m.cell source)) (target+1) (source+1) n

@[simp] theorem store_same (m : Block α) (i : Int) (value : α) :
    (m.store i value).cell i = value := by
  simp [store]

@[simp] theorem store_other (m : Block α) {i j : Int} (value : α) (different : j ≠ i) :
    (m.store i value).cell j = m.cell j := by
  simp [store,different]

@[simp] theorem read_length (m : Block α) (i : Int) (n : Nat) : (m.read i n).length = n := by
  induction n generalizing i with
  | zero => rfl
  | succ n ih => simp [read,ih]

theorem read_append (m : Block α) (i : Int) (a b : Nat) :
    m.read i (a+b) = m.read i a ++ m.read (i+a) b := by
  induction a generalizing i with
  | zero => simp [read]
  | succ a ih =>
    have next : i+1+(a : Int) = i+(a+1 : Nat) := by omega
    rw [Nat.succ_add]
    simp only [read,ih (i+1),List.cons_append,next]

theorem read_eq (m other : Block α) (i j : Int) (n : Nat)
    (same : ∀ k : Nat, k < n → m.cell (i+k) = other.cell (j+k)) : m.read i n = other.read j n := by
  induction n generalizing i j with
  | zero => rfl
  | succ n ih =>
    have head := same 0 (by omega)
    simp only [Nat.cast_zero,add_zero] at head
    simp only [read]
    rw [head,ih (i+1) (j+1)]
    intro k bound
    have tail := same (k+1) (by omega)
    have left : i+((k+1 : Nat) : Int) = i+1+k := by omega
    have right : j+((k+1 : Nat) : Int) = j+1+k := by omega
    rw [left,right] at tail
    exact tail

@[simp] theorem mem_span {i j : Int} {n : Nat} : j ∈ span i n ↔ i ≤ j ∧ j < i+n := by
  simp only [span,List.mem_map,List.mem_range]
  constructor
  · intro member
    obtain ⟨k,bound,rfl⟩ := member
    omega
  · intro inside
    exact ⟨(j-i).toNat,by omega,by omega⟩

theorem span_succ (i : Int) (n : Nat) : span i (n+1) = i::span (i+1) n := by
  simp only [span,List.range_succ_eq_map,List.map_cons,List.map_map,Nat.cast_zero,add_zero]
  congr 1
  apply List.map_congr_left
  intro k _
  simp only [Function.comp_apply,Nat.succ_eq_add_one,Nat.cast_add,Nat.cast_one]
  omega

theorem span_length (i : Int) (n : Nat) : (span i n).length = n := by
  rw [span,List.length_map,List.length_range]

theorem span_nodup (i : Int) (n : Nat) : (span i n).Nodup := by
  refine List.pairwise_map.mpr (List.nodup_range.imp fun different same => different ?_)
  omega

theorem read_congr {m other : Block α} {i : Int} {n : Nat}
    (same : ∀ j ∈ span i n, m.cell j = other.cell j) : m.read i n = other.read i n :=
  read_eq m other i i n fun k bound => same _ (mem_span.mpr (by omega))

theorem read_entry (m : Block α) (i : Int) (n k : Nat) (bound : k < n) :
    (m.read i n)[k]? = some (m.cell (i+k)) := by
  induction n generalizing i k with
  | zero => omega
  | succ n ih =>
    cases k with
    | zero => simp [read]
    | succ k =>
      have next : i+1+(k : Int) = i+(k+1 : Nat) := by omega
      simp only [read,List.getElem?_cons_succ]
      rw [ih (i+1) k (by omega),next]

theorem cell_of_read (m : Block α) {i : Int} {n : Nat} {before after : List α} {value : α}
    (content : m.read i n = before ++ value::after) : m.cell (i+before.length) = value := by
  have size := congrArg List.length content
  simp only [read_length,List.length_append,List.length_cons] at size
  have entry := read_entry m i n before.length (by omega)
  rw [content] at entry
  simpa using entry.symm

theorem head_of_read (m : Block α) {i : Int} {n : Nat} {after : List α} {value : α}
    (content : m.read i n = value::after) : m.cell i = value := by
  have initial : m.read i n = [] ++ value::after := content
  simpa using m.cell_of_read initial

theorem last_of_read (m : Block α) {i : Int} {n : Nat} {before : List α} {value : α}
    (content : m.read i n = before ++ [value]) : m.cell (i+before.length) = value :=
  m.cell_of_read content

theorem read_split (m : Block α) {i : Int} {n : Nat} {before after : List α}
    (content : m.read i n = before ++ after) :
    m.read i before.length = before ∧ m.read (i+before.length) after.length = after := by
  have size := congrArg List.length content
  simp only [read_length,List.length_append] at size
  rw [size,read_append] at content
  exact List.append_inj content (by simp)

theorem copy_outside (m : Block α) (i j : Int) (values : List α)
    (outside : j < i ∨ i+values.length ≤ j) : (m.copy i values).cell j = m.cell j := by
  induction values generalizing m i with
  | nil => rfl
  | cons value rest ih =>
    simp only [List.length_cons] at outside
    rw [copy,ih _ _ (by omega),store_other _ _ (by omega)]

theorem copy_congr {m other : Block α} {i j : Int} (values : List α)
    (same : m.cell j = other.cell j) : (m.copy i values).cell j = (other.copy i values).cell j := by
  induction values generalizing m other i with
  | nil => exact same
  | cons value rest ih =>
    apply ih
    by_cases here : j = i
    · rw [here,store_same,store_same]
    · rw [store_other _ _ here,store_other _ _ here,same]

theorem read_copy (m : Block α) (i : Int) (values : List α) :
    (m.copy i values).read i values.length = values := by
  induction values generalizing m i with
  | nil => rfl
  | cons value rest ih =>
    simp only [copy,List.length_cons,read,ih]
    rw [copy_outside _ _ _ _ (by omega),store_same]

theorem copy_append (m : Block α) (i : Int) (xs ys : List α) :
    m.copy i (xs ++ ys) = (m.copy i xs).copy (i+xs.length) ys := by
  induction xs generalizing m i with
  | nil => simp [copy]
  | cons x xs ih =>
    have next : i+1+(xs.length : Int) = i+(x::xs).length := by
      rw [List.length_cons]
      omega
    rw [List.cons_append,copy,copy,ih,next]

theorem read_terminated (m : Block α) (values : List α) (last : α) :
    ((m.copy 0 values).store values.length last).read 0 (values.length+1) = values ++ [last] := by
  have both : (m.copy 0 values).store values.length last = m.copy 0 (values ++ [last]) := by
    rw [copy_append,Int.zero_add]
    rfl
  have copied := read_copy m 0 (values ++ [last])
  rw [List.length_append,List.length_singleton] at copied
  rw [both,copied]

theorem shiftRight_cell (m : Block α) (p j : Int) (n : Nat) :
    (m.shiftRight p n).cell j = if p < j ∧ j ≤ p+n then m.cell (j-1) else m.cell j := by
  induction n generalizing m with
  | zero =>
    rw [if_neg (by omega)]
    rfl
  | succ n ih =>
    rw [shiftRight,ih]
    by_cases top : j = p+n+1
    · subst j
      rw [if_neg (by omega),if_pos (by omega),store_same]
      congr 1
      omega
    · by_cases inside : p < j ∧ j ≤ p+n
      · rw [if_pos inside,if_pos (by omega),store_other _ _ (by omega)]
      · rw [if_neg inside,if_neg (by omega),store_other _ _ top]

theorem shiftLeft_cell (m : Block α) (target source j : Int) (n : Nat) (down : target ≤ source) :
    (m.shiftLeft target source n).cell j =
      if target ≤ j ∧ j < target+n then m.cell (j-target+source) else m.cell j := by
  induction n generalizing m target source with
  | zero =>
    rw [if_neg (by omega)]
    rfl
  | succ n ih =>
    rw [shiftLeft,ih _ _ _ (by omega)]
    by_cases first : j = target
    · subst j
      rw [if_neg (by omega),if_pos (by omega),store_same]
      congr 1
      omega
    · by_cases inside : target ≤ j ∧ j < target+(n+1 : Nat)
      · rw [if_pos (by omega),if_pos inside,store_other _ _ (by omega)]
        congr 1
        omega
      · rw [if_neg (by omega),if_neg inside,store_other _ _ first]

theorem read_shiftLeft (m : Block α) {i : Int} {xs ys zs : List α}
    (content : m.read i (xs ++ (ys ++ zs)).length = xs ++ (ys ++ zs)) :
    (m.shiftLeft (i+xs.length) (i+xs.length+ys.length) zs.length).read i (xs ++ zs).length =
      xs ++ zs := by
  obtain ⟨left,right⟩ := read_split m content
  obtain ⟨_,right⟩ := read_split m right
  rw [List.length_append,read_append]
  congr 1
  · conv_rhs => rw [← left]
    apply read_eq
    intro k bound
    rw [shiftLeft_cell _ _ _ _ _ (by omega),if_neg (by omega)]
  · conv_rhs => rw [← right]
    apply read_eq
    intro k bound
    rw [shiftLeft_cell _ _ _ _ _ (by omega),if_pos (by omega)]
    congr 1
    omega

/-- Every store made on the way from the first block to the second lies in `range`. -/
def Writes (range : Int → Prop) (m next : Block α) : Prop :=
  ∃ added, next.stores = added ++ m.stores ∧ ∀ i ∈ added, range i

theorem Writes.refl (range : Int → Prop) (m : Block α) : Writes range m m :=
  ⟨[],rfl,by simp⟩

theorem Writes.trans {range : Int → Prop} {a b c : Block α} (first : Writes range a b)
    (second : Writes range b c) : Writes range a c := by
  obtain ⟨early,split,inside⟩ := first
  obtain ⟨late,next,within⟩ := second
  refine ⟨late ++ early,?_,?_⟩
  · rw [next,split,List.append_assoc]
  · intro i member
    rcases List.mem_append.mp member with recent | old
    · exact within i recent
    · exact inside i old

theorem Writes.mono {narrow wide : Int → Prop} {a b : Block α} (writes : Writes narrow a b)
    (wider : ∀ i, narrow i → wide i) : Writes wide a b := by
  obtain ⟨added,split,inside⟩ := writes
  exact ⟨added,split,fun i member => wider i (inside i member)⟩

theorem store_writes (m : Block α) (i : Int) (value : α) :
    Writes (fun j => j = i) m (m.store i value) :=
  ⟨[i],rfl,by simp⟩

theorem copy_writes (m : Block α) (i : Int) (values : List α) :
    Writes (fun j => i ≤ j ∧ j < i+values.length) m (m.copy i values) := by
  induction values generalizing m i with
  | nil => exact Writes.refl _ _
  | cons value rest ih =>
    apply Writes.trans ((store_writes m i value).mono _) ((ih _ _).mono _)
    · intro j same
      simp only [List.length_cons]
      omega
    · intro j inside
      simp only [List.length_cons]
      omega

/-- A copy stores to the cells of its range one after the other. -/
theorem copy_stores (m : Block α) (i : Int) (values : List α) :
    (m.copy i values).stores = (span i values.length).reverse ++ m.stores := by
  induction values generalizing m i with
  | nil => rfl
  | cons value rest ih =>
    rw [copy,ih,List.length_cons,span_succ,List.reverse_cons,List.append_assoc]
    rfl

/-- A last store is inside the range if all stores are. -/
theorem Writes.last {wide range : Int → Prop} {m next : Block α} {i : Int} {value : α}
    (before : Writes wide m next) (writes : Writes range m (next.store i value)) : range i := by
  obtain ⟨early,split,_⟩ := before
  obtain ⟨added,whole,inside⟩ := writes
  have grown : i::next.stores = added ++ m.stores := whole
  rw [split,← List.cons_append] at grown
  rw [← List.append_cancel_right grown] at inside
  exact inside i List.mem_cons_self

theorem shiftRight_writes (m : Block α) (p : Int) (n : Nat) :
    Writes (fun j => p < j ∧ j ≤ p+n) m (m.shiftRight p n) := by
  induction n generalizing m with
  | zero => exact Writes.refl _ _
  | succ n ih =>
    apply Writes.trans ((store_writes m _ _).mono _) ((ih _).mono _)
    · intro j same
      omega
    · intro j inside
      omega

theorem shiftLeft_writes (m : Block α) (target source : Int) (n : Nat) :
    Writes (fun j => target ≤ j ∧ j < target+n) m (m.shiftLeft target source n) := by
  induction n generalizing m target source with
  | zero => exact Writes.refl _ _
  | succ n ih =>
    apply Writes.trans ((store_writes m _ _).mono _) ((ih _ _ _).mono _)
    · intro j same
      omega
    · intro j inside
      omega

/-- A cell moved down depends on the cells it was moved from, the others on themselves. -/
theorem shiftLeft_congr {m other : Block α} {target source j : Int} {n : Nat}
    (down : target ≤ source) (read : ∀ i ∈ span source n, m.cell i = other.cell i)
    (same : m.cell j = other.cell j) :
    (m.shiftLeft target source n).cell j = (other.shiftLeft target source n).cell j := by
  rw [shiftLeft_cell m _ _ _ _ down,shiftLeft_cell other _ _ _ _ down]
  split
  · exact read _ (mem_span.mpr (by omega))
  · exact same

end Block
end SerialIp.Library

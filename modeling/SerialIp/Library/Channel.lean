import Mathlib.Data.List.Basic

/-! The purpose of a queue between a source and a sink, stated without any
representation: what the sink accepted, followed by what is pending, is what the
source delivered. The law is a field, so no step can lose or reorder a symbol. -/
namespace SerialIp.Library

structure Channel (α : Type) where
  delivered : List α
  accepted : List α
  pending : List α
  conserved : accepted ++ pending = delivered

namespace Channel
variable {α : Type}

def empty : Channel α := ⟨[],[],[],rfl⟩

def deliver (c : Channel α) (xs : List α) : Channel α where
  delivered := c.delivered ++ xs
  accepted := c.accepted
  pending := c.pending ++ xs
  conserved := by rw [← List.append_assoc,c.conserved]

def accept (c : Channel α) (n : Nat) : Channel α where
  delivered := c.delivered
  accepted := c.accepted ++ c.pending.take n
  pending := c.pending.drop n
  conserved := by rw [List.append_assoc,List.take_append_drop,c.conserved]

end Channel
end SerialIp.Library

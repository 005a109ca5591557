import Mathlib.Data.Fintype.Card
import Mathlib.Data.List.Nodup

/-! A log that takes every key at most once. Distinctness is a field, so every
log there is has it; the number of keys bounds the length. -/
namespace SerialIp.Library

structure Once (κ : Type) where
  entries : List κ
  distinct : entries.Nodup

namespace Once
variable {κ : Type} [DecidableEq κ]

def empty : Once κ := ⟨[],List.nodup_nil⟩

def add (log : Once κ) (key : κ) : Once κ where
  entries := if key ∈ log.entries then log.entries else log.entries ++ [key]
  distinct := by
    split
    · exact log.distinct
    · rename_i fresh
      rw [← List.concat_eq_append]
      exact log.distinct.concat fresh

theorem add_of_mem {log : Once κ} {key : κ} (present : key ∈ log.entries) : log.add key = log := by
  unfold add
  simp only [if_pos present]

theorem add_of_notMem {log : Once κ} {key : κ} (fresh : key ∉ log.entries) :
    (log.add key).entries = log.entries ++ [key] := if_neg fresh

theorem mem_add (log : Once κ) (key other : κ) :
    other ∈ (log.add key).entries ↔ other ∈ log.entries ∨ other = key := by
  by_cases present : key ∈ log.entries
  · rw [add_of_mem present]
    refine ⟨Or.inl,?_⟩
    intro either
    rcases either with old | rfl
    · exact old
    · exact present
  · rw [add_of_notMem present,List.mem_append,List.mem_singleton]

omit [DecidableEq κ] in
theorem count_le_one [BEq κ] [LawfulBEq κ] (log : Once κ) (key : κ) :
    log.entries.count key ≤ 1 :=
  List.nodup_iff_count_le_one.mp log.distinct key

omit [DecidableEq κ] in
theorem length_le_card {ι : Type} [Fintype ι] (log : Once κ) {f : κ → ι}
    (injective : Function.Injective f) : log.entries.length ≤ Fintype.card ι := by
  rw [← List.length_map (f := f)]
  exact (log.distinct.map injective).length_le_card

end Once
end SerialIp.Library

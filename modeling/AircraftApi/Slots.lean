/-
AircraftApi/Slots.lean

Tables of slots, and what a function weighs over the slots in use.

A program that counts what its tasks hold, in counters of its own, keeps each counter
equal to such a weight.  One slot changes at a time, and the weight changes by what the
slot weighed and weighs (`total_update`).
-/
import Mathlib

namespace Slots

variable {σ : Type*} {weight : σ → ℕ} {n i : ℕ} {slots : ℕ → σ}

/-- The weight of the first `n` slots. -/
def total (weight : σ → ℕ) (n : ℕ) (slots : ℕ → σ) : ℕ := ∑ i ∈ Finset.range n, weight (slots i)

theorem total_update (weight : σ → ℕ) (slots : ℕ → σ) (hi : i < n) (slot : σ) :
    total weight n (Function.update slots i slot) + weight (slots i)
      = total weight n slots + weight slot := by
  have hmem : i ∈ Finset.range n := Finset.mem_range.mpr hi
  have hrest : ∑ j ∈ (Finset.range n).erase i, weight (Function.update slots i slot j)
      = ∑ j ∈ (Finset.range n).erase i, weight (slots j) := by
    apply Finset.sum_congr rfl
    intro j hj
    rw [Function.update_of_ne (Finset.ne_of_mem_erase hj)]
  rw [total, total, ← Finset.add_sum_erase _ _ hmem, ← Finset.add_sum_erase _ _ hmem, hrest,
    Function.update_self]
  ring

/-- A slot comes into use. -/
theorem total_succ (slot : σ) : total weight (n + 1) (Function.update slots n slot)
    = total weight n slots + weight slot := by
  have hold : ∑ j ∈ Finset.range n, weight (Function.update slots n slot j)
      = ∑ j ∈ Finset.range n, weight (slots j) := by
    apply Finset.sum_congr rfl
    intro j hj
    rw [Function.update_of_ne (Finset.mem_range.mp hj).ne]
  rw [total, Finset.sum_range_succ, hold, Function.update_self]
  rfl

theorem le_total (weight : σ → ℕ) (hi : i < n) : weight (slots i) ≤ total weight n slots :=
  Finset.single_le_sum (f := fun j => weight (slots j)) (fun _ _ => Nat.zero_le _)
    (Finset.mem_range.mpr hi)

/-- Slot by slot one weight is within a multiple of the other. -/
theorem total_le_mul {other : σ → ℕ} (c n : ℕ) (slots : ℕ → σ)
    (h : ∀ i < n, weight (slots i) ≤ other (slots i) * c) :
    total weight n slots ≤ total other n slots * c := by
  rw [total, total, Finset.sum_mul]
  apply Finset.sum_le_sum
  intro i hi
  exact h i (Finset.mem_range.mp hi)

theorem exists_of_total_pos (h : 0 < total weight n slots) : ∃ i < n, 0 < weight (slots i) := by
  obtain ⟨i, hi, hpos⟩ := Finset.exists_ne_zero_of_sum_ne_zero h.ne'
  exact ⟨i, Finset.mem_range.mp hi, Nat.pos_of_ne_zero hpos⟩

end Slots

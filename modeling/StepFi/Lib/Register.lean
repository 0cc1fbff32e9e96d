import Mathlib.Algebra.BigOperators.Intervals
import Mathlib.Algebra.Order.BigOperators.Group.Finset
import Mathlib.Data.Int.Interval
import Mathlib.Order.Interval.Finset.Nat

/-!
# Registers and their tallies

A register is a table of records numbered `1..n` in the order they were
entered: records are revised in place and appended, never removed. A tally sums
a weight over the records. The rules say what revising and appending do to a
tally, and what a tally of non-negative weights says about single records.
-/

namespace StepFi.Lib

open Finset

variable {α : Type*} {n k : ℕ} {f : ℕ → Option α} {w v : α → ℤ} {a b : α}

/-- The weight of the records `1..n`. -/
def tally (n : ℕ) (f : ℕ → Option α) (w : α → ℤ) : ℤ :=
  ∑ i ∈ Icc 1 n, (f i).elim 0 w

/-- Every record is numbered within `1..n`. -/
def Filled (n : ℕ) (f : ℕ → Option α) : Prop :=
  ∀ i a, f i = some a → i ∈ Icc 1 n

theorem tally_set (hk : k ∈ Icc 1 n) (hf : f k = some a) :
    tally n (Function.update f k (some b)) w = tally n f w - w a + w b := by
  have hrest : ∑ i ∈ (Icc 1 n).erase k, (Function.update f k (some b) i).elim 0 w
      = ∑ i ∈ (Icc 1 n).erase k, (f i).elim 0 w := by
    refine sum_congr rfl fun i hi => ?_
    rw [Function.update_of_ne (ne_of_mem_erase hi)]
  have hnew := add_sum_erase (Icc 1 n) (fun i => (Function.update f k (some b) i).elim 0 w) hk
  have hold := add_sum_erase (Icc 1 n) (fun i => (f i).elim 0 w) hk
  simp only [Function.update_self, Option.elim_some, hf] at hnew hold
  simp only [tally]
  omega

theorem tally_push :
    tally (n + 1) (Function.update f (n + 1) (some b)) w = tally n f w + w b := by
  rw [tally, sum_Icc_succ_top (by omega), Function.update_self]
  congr 1
  refine sum_congr rfl fun i hi => ?_
  have hne : i ≠ n + 1 := by
    have := (mem_Icc.mp hi).2
    omega
  rw [Function.update_of_ne hne]

theorem Filled.set (h : Filled n f) (hk : k ∈ Icc 1 n) :
    Filled n (Function.update f k (some b)) := by
  intro i c hi
  by_cases hik : i = k
  · rwa [hik]
  · exact h i c (by rwa [Function.update_of_ne hik] at hi)

theorem Filled.push (h : Filled n f) : Filled (n + 1) (Function.update f (n + 1) (some b)) := by
  intro i c hi
  by_cases hik : i = n + 1
  · exact mem_Icc.mpr ⟨by omega, by omega⟩
  · have := mem_Icc.mp (h i c (by rwa [Function.update_of_ne hik] at hi))
    exact mem_Icc.mpr ⟨this.1, by omega⟩

theorem Filled.fresh (h : Filled n f) : f (n + 1) = none := by
  cases hf : f (n + 1) with
  | none => rfl
  | some a =>
    have := (mem_Icc.mp (h _ a hf)).2
    omega

/-! ## Non-negative weights -/

section Nonneg

variable (hw : ∀ i a, f i = some a → 0 ≤ w a)
include hw

theorem elim_nonneg (i : ℕ) : 0 ≤ (f i).elim 0 w := by
  cases hf : f i with
  | none => simp
  | some a => exact hw i a hf

theorem tally_nonneg : 0 ≤ tally n f w :=
  sum_nonneg fun i _ => elim_nonneg hw i

theorem le_tally (hk : k ∈ Icc 1 n) (hf : f k = some a) : w a ≤ tally n f w := by
  have := single_le_sum (fun i _ => elim_nonneg hw i) hk (f := fun i => (f i).elim 0 w)
  simpa [tally, hf] using this

theorem tally_eq_zero_iff (hfill : Filled n f) :
    tally n f w = 0 ↔ ∀ i a, f i = some a → w a = 0 := by
  rw [tally, sum_eq_zero_iff_of_nonneg fun i _ => elim_nonneg hw i]
  constructor
  · intro h i a hf
    simpa [hf] using h i (hfill i a hf)
  · intro h i _
    cases hf : f i with
    | none => rfl
    | some a => exact h i a hf

/-- One record carries the whole tally exactly when the others weigh nothing. -/
theorem tally_eq_single_iff (hfill : Filled n f) (hf : f k = some a) :
    tally n f w = w a ↔ ∀ i b, f i = some b → i ≠ k → w b = 0 := by
  have hk := hfill k a hf
  have hsplit := add_sum_erase (Icc 1 n) (fun i => (f i).elim 0 w) hk
  simp only [hf, Option.elim_some] at hsplit
  have hrest : tally n f w = w a ↔ ∑ i ∈ (Icc 1 n).erase k, (f i).elim 0 w = 0 := by
    simp only [tally]
    omega
  rw [hrest, sum_eq_zero_iff_of_nonneg fun i _ => elim_nonneg hw i]
  constructor
  · intro h i b hi hik
    simpa [hi] using h i (mem_erase.mpr ⟨hik, hfill i b hi⟩)
  · intro h i hi
    cases hfi : f i with
    | none => rfl
    | some b => exact h i b hfi (ne_of_mem_erase hi)

end Nonneg

end StepFi.Lib

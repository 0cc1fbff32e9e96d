import Mathlib.Algebra.Order.BigOperators.Group.List
import Mathlib.Algebra.Order.Group.Defs
import Mathlib.Algebra.Order.Monoid.Unbundled.MinMax

/-!
# Payments that fall through buckets

A debt is a list of buckets, the first to be paid in front. A payment fills them
in order: `poured` is what each bucket takes of it and `left` what each is still
owed. A payment within the debt is used up (`poured_sum`), reaches a bucket only
when those before it are empty (`poured_in_order`), and can be split anywhere
(`left_add`, `poured_add`).
-/

namespace StepFi.Lib.Waterfall

section Definitions

variable {α : Type*} [AddCommGroup α] [LinearOrder α]

/-- What each bucket takes of a payment `a`. -/
def poured (a : α) : List α → List α
  | [] => []
  | x :: rest => min a x :: poured (a - min a x) rest

/-- What each bucket is still owed after a payment `a`. -/
def left (a : α) : List α → List α
  | [] => []
  | x :: rest => (x - min a x) :: left (a - min a x) rest

/-- No bucket is owed less than nothing. -/
def Nonneg (buckets : List α) : Prop := ∀ x ∈ buckets, 0 ≤ x

theorem nonneg_cons {x : α} {rest : List α} : Nonneg (x :: rest) ↔ 0 ≤ x ∧ Nonneg rest :=
  List.forall_mem_cons

/-- Nothing poured, nothing taken. -/
theorem poured_zero {buckets : List α} (hs : Nonneg buckets) :
    poured 0 buckets = buckets.map fun _ => 0 := by
  induction buckets with
  | nil => rfl
  | cons x rest ih =>
    obtain ⟨hx, hrest⟩ := nonneg_cons.mp hs
    rw [poured, min_eq_left hx, sub_zero, ih hrest, List.map_cons]

/-- What is poured and what is left make up the bucket. -/
theorem left_sum {a : α} {buckets : List α} :
    (left a buckets).sum = buckets.sum - (poured a buckets).sum := by
  induction buckets generalizing a with
  | nil => exact (sub_zero _).symm
  | cons x rest ih =>
    rw [left, poured, List.sum_cons, List.sum_cons, List.sum_cons, ih, add_sub_add_comm]

/-- A bucket takes something only when the buckets before it are empty. -/
theorem poured_in_order {a : α} {buckets : List α} (hs : Nonneg buckets) :
    ((left a buckets).zip (poured a buckets)).Pairwise fun x y => y.2 ≠ 0 → x.1 = 0 := by
  induction buckets generalizing a with
  | nil => exact List.Pairwise.nil
  | cons x rest ih =>
    obtain ⟨-, hrest⟩ := nonneg_cons.mp hs
    refine List.pairwise_cons.mpr ⟨?_, ih hrest⟩
    intro y hy htakes
    rcases le_total a x with h | h
    · -- the payment ends in this bucket
      have hmem := (List.of_mem_zip hy).2
      rw [min_eq_left h, sub_self, poured_zero hrest, List.mem_map] at hmem
      obtain ⟨_, -, hzero⟩ := hmem
      exact absurd hzero.symm htakes
    · exact sub_eq_zero.mpr (min_eq_right h).symm

end Definitions

variable {α : Type*} [AddCommGroup α] [LinearOrder α] [IsOrderedAddMonoid α]
variable {a b x : α} {buckets rest : List α}

theorem poured_nonneg (hs : Nonneg buckets) (ha : 0 ≤ a) : Nonneg (poured a buckets) := by
  induction buckets generalizing a with
  | nil => exact hs
  | cons x rest ih =>
    obtain ⟨hx, hrest⟩ := nonneg_cons.mp hs
    exact nonneg_cons.mpr ⟨le_min ha hx, ih hrest (sub_nonneg.mpr (min_le_left a x))⟩

theorem left_nonneg (hs : Nonneg buckets) : Nonneg (left a buckets) := by
  induction buckets generalizing a with
  | nil => exact hs
  | cons x rest ih =>
    obtain ⟨-, hrest⟩ := nonneg_cons.mp hs
    exact nonneg_cons.mpr ⟨sub_nonneg.mpr (min_le_right a x), ih hrest⟩

/-- A payment within the debt is used up. -/
theorem poured_sum (hs : Nonneg buckets) (ha : 0 ≤ a) (hle : a ≤ buckets.sum) :
    (poured a buckets).sum = a := by
  induction buckets generalizing a with
  | nil => exact (le_antisymm hle ha).symm
  | cons x rest ih =>
    obtain ⟨hx, hrest⟩ := nonneg_cons.mp hs
    have hover : a - min a x ≤ rest.sum := by
      rcases le_total a x with h | h
      · rw [min_eq_left h, sub_self]
        exact List.sum_nonneg hrest
      · rw [min_eq_right h]
        exact sub_le_iff_le_add'.mpr hle
    rw [poured, List.sum_cons, ih hrest (sub_nonneg.mpr (min_le_left a x)) hover,
      add_sub_cancel]

/-- A bucket takes a payment in two parts as it takes it whole. -/
theorem min_add_eq (hb : 0 ≤ b) : min (a + b) x = min a x + min b (x - min a x) := by
  rcases le_total a x with h | h
  · rw [min_eq_left h, ← min_add_add_left, add_sub_cancel]
  · rw [min_eq_right h, sub_self, min_eq_right hb, add_zero]
    exact min_eq_right (le_trans h (le_add_of_nonneg_right hb))

/-- And so passes on the same. -/
theorem over_add (hb : 0 ≤ b) :
    a + b - min (a + b) x = (a - min a x) + (b - min b (x - min a x)) := by
  rw [min_add_eq hb, add_sub_add_comm]

theorem left_add (hb : 0 ≤ b) : left (a + b) buckets = left b (left a buckets) := by
  induction buckets generalizing a b with
  | nil => rfl
  | cons x rest ih =>
    have hover : 0 ≤ b - min b (x - min a x) := sub_nonneg.mpr (min_le_left ..)
    rw [left, left, left, over_add hb, ih hover, min_add_eq hb, sub_add_eq_sub_sub]

theorem poured_add (hb : 0 ≤ b) : poured (a + b) buckets =
    List.zipWith (· + ·) (poured a buckets) (poured b (left a buckets)) := by
  induction buckets generalizing a b with
  | nil => rfl
  | cons x rest ih =>
    have hover : 0 ≤ b - min b (x - min a x) := sub_nonneg.mpr (min_le_left ..)
    rw [poured, poured, left, poured, over_add hb, ih hover, min_add_eq hb, List.zipWith_cons_cons]

end StepFi.Lib.Waterfall

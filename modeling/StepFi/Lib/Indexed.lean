import Mathlib.Algebra.BigOperators.Group.List.Basic
import Mathlib.Algebra.Order.BigOperators.Group.List
import Mathlib.Algebra.Order.Ring.Nat
import Mathlib.Data.List.Nodup
import Mathlib.Logic.Function.Basic

/-!
# Tables with an index

A table over keys of any kind, kept beside the list of the keys that were ever
entered. Records are entered and overwritten, never removed, so the list stays
the table's exact key list (`Listed`); a weight summed over it moves by the
difference of the record written and the one it replaces.
-/

namespace StepFi.Lib

variable {κ α : Type*}
variable {keys : List κ} {f : κ → Option α} {w : α → ℕ} {k : κ} {a b : α}

/-- `keys` lists the keys of `f`, each once. -/
structure Listed (keys : List κ) (f : κ → Option α) : Prop where
  nodup : keys.Nodup
  mem_iff : ∀ k, k ∈ keys ↔ (f k).isSome = true

/-- The weight of the listed records. -/
def weighed (keys : List κ) (f : κ → Option α) (w : α → ℕ) : ℕ :=
  (keys.map fun k => (f k).elim 0 w).sum

theorem Listed.empty : Listed [] (fun _ : κ => (none : Option α)) :=
  ⟨List.nodup_nil, by simp⟩

theorem Listed.mem (h : Listed keys f) (hf : f k = some a) : k ∈ keys :=
  (h.mem_iff k).mpr (by simp [hf])

theorem weighed_congr {g : κ → Option α} (h : ∀ k ∈ keys, f k = g k) :
    weighed keys f w = weighed keys g w := by
  unfold weighed
  rw [List.map_congr_left fun k hk => by rw [h k hk]]

/-- No listed record weighs more than all of them together. -/
theorem Listed.le_weighed (h : Listed keys f) (hf : f k = some a) : w a ≤ weighed keys f w := by
  have hmem : w a ∈ keys.map fun k => (f k).elim 0 w :=
    List.mem_map.mpr ⟨k, h.mem hf, by simp [hf]⟩
  exact List.single_le_sum (by simp) _ hmem

/-- The weight of the records that `p` picks, as a sum over the records alone. -/
theorem sum_filterMap_filter (p : α → Bool) :
    (((keys.filterMap f).filter p).map w).sum = weighed keys f fun a => if p a then w a else 0 := by
  induction keys with
  | nil => rfl
  | cons k keys ih =>
    simp only [weighed] at ih
    cases hf : f k with
    | none => simp [weighed, hf, ih]
    | some a => by_cases hp : p a = true <;> simp [weighed, hf, hp, ih]

/-! ## Entering a record -/

section Enter

variable [DecidableEq κ]

/-- Add a key to the list, unless it is there. -/
def enroll (k : κ) (keys : List κ) : List κ := if k ∈ keys then keys else keys ++ [k]

theorem mem_enroll {i : κ} : i ∈ enroll k keys ↔ i ∈ keys ∨ i = k := by
  unfold enroll
  split
  · rename_i hk
    constructor
    · exact Or.inl
    · rintro (hi | rfl)
      · exact hi
      · exact hk
  · simp

theorem Listed.enter (h : Listed keys f) :
    Listed (enroll k keys) (Function.update f k (some b)) := by
  constructor
  · unfold enroll
    split
    · exact h.nodup
    · rename_i hk
      rw [← List.concat_eq_append]
      exact List.Nodup.concat hk h.nodup
  · intro i
    rw [mem_enroll, h.mem_iff]
    by_cases hik : i = k
    · subst hik
      simp
    · simp [hik]

theorem enroll_of_mem (hk : k ∈ keys) : enroll k keys = keys := if_pos hk

theorem weighed_update_of_notMem (hk : k ∉ keys) :
    weighed keys (Function.update f k (some b)) w = weighed keys f w := by
  refine weighed_congr fun i hi => ?_
  rw [Function.update_of_ne]
  rintro rfl
  exact hk hi

theorem weighed_update_of_mem (hnodup : keys.Nodup) (hk : k ∈ keys) :
    weighed keys (Function.update f k (some b)) w + (f k).elim 0 w = weighed keys f w + w b := by
  induction keys with
  | nil => simp at hk
  | cons i keys ih =>
    obtain ⟨hi, hnodup⟩ := List.nodup_cons.mp hnodup
    simp only [weighed, List.map_cons, List.sum_cons] at ih ⊢
    rcases List.mem_cons.mp hk with rfl | hk
    · have hrest : weighed keys (Function.update f k (some b)) w = weighed keys f w :=
        weighed_update_of_notMem hi
      simp only [weighed] at hrest
      rw [hrest, Function.update_self, Option.elim_some]
      omega
    · have hne : i ≠ k := by
        rintro rfl
        exact hi hk
      have := ih hnodup hk
      rw [Function.update_of_ne hne]
      omega

/-- Writing a record changes the weight by its own, less that of the record it
replaces. -/
theorem weighed_enter (h : Listed keys f) :
    weighed (enroll k keys) (Function.update f k (some b)) w + (f k).elim 0 w
      = weighed keys f w + w b := by
  unfold enroll
  split
  · rename_i hk
    exact weighed_update_of_mem h.nodup hk
  · rename_i hk
    have hnone : f k = none := by simpa [h.mem_iff] using hk
    have hrest := weighed_update_of_notMem (f := f) (w := w) (b := b) hk
    simp only [weighed] at hrest ⊢
    simp [hrest, hnone]

end Enter

end StepFi.Lib

import Mathlib.Algebra.Ring.Nat
import Mathlib.Data.List.Nodup
import Mathlib.Logic.Function.Basic

/-!
# Lists kept in pages

A list that only grows can be stored in pages of a fixed size: `Paged n xs page`
says that `page` holds `xs`, `n` entries to a page. The rules append an entry, read
from any position to the end of its page, and say what every slot holds.
`slices` are consecutive reads of given sizes.

`filedUnder` is the part of a list that is stored under one key when the key depends
on the position only, and `rank` the place that a position has in it.
-/

namespace StepFi.Lib

variable {α : Type*} {n : ℕ} {xs : List α} {x : α} {page : ℕ → Option (List α)}

/-- Page `k` holds the entries from position `k * n` on; a page without entries
is missing. -/
def Paged (n : ℕ) (xs : List α) (page : ℕ → Option (List α)) : Prop :=
  ∀ k, page k = if k * n < xs.length then some ((xs.drop (k * n)).take n) else none

theorem Paged.nil : Paged n ([] : List α) fun _ => none := by
  intro k
  rfl

/-- A page's entries, stored or not. -/
theorem Paged.entries (h : Paged n xs page) (k : ℕ) :
    (page k).getD [] = (xs.drop (k * n)).take n := by
  rw [h k]
  split
  · rfl
  · rename_i hge
    rw [List.drop_of_length_le (by omega), List.take_nil]
    rfl

/-- A new entry goes to the last page, or opens the next one. -/
theorem Paged.push (hn : 0 < n) (h : Paged n xs page) (x : α) :
    Paged n (xs ++ [x]) (Function.update page (xs.length / n)
      (some ((page (xs.length / n)).getD [] ++ [x]))) := by
  have hdiv := Nat.div_add_mod xs.length n
  have hmod := Nat.mod_lt xs.length hn
  rw [Nat.mul_comm] at hdiv
  intro k
  rw [List.length_append, List.length_singleton]
  rcases Nat.lt_trichotomy k (xs.length / n) with hk | hk | hk
  · -- A full page keeps its entries.
    have hle : (k + 1) * n ≤ xs.length / n * n := Nat.mul_le_mul_right n hk
    rw [Nat.succ_mul] at hle
    rw [Function.update_of_ne (Nat.ne_of_lt hk), h k, if_pos (by omega), if_pos (by omega),
      List.drop_append_of_le_length (by omega), List.take_append_of_le_length]
    rw [List.length_drop]
    omega
  · subst hk
    rw [Function.update_self, h.entries, if_pos (by omega),
      List.drop_append_of_le_length (by omega), List.take_of_length_le, List.take_of_length_le]
    · rw [List.length_append, List.length_drop, List.length_singleton]
      omega
    · rw [List.length_drop]
      omega
  · have hle : (xs.length / n + 1) * n ≤ k * n := Nat.mul_le_mul_right n hk
    rw [Nat.succ_mul] at hle
    rw [Function.update_of_ne (Nat.ne_of_gt hk), h k, if_neg (by omega), if_neg (by omega)]

/-- From a stored position, the rest of its page. -/
theorem Paged.from_position (h : Paged n xs page) {i : ℕ} (hi : i < xs.length) :
    ∃ stored, page (i / n) = some stored ∧
      stored.drop (i % n) = (xs.drop i).take (n - i % n) := by
  have hdiv := Nat.div_add_mod i n
  rw [Nat.mul_comm] at hdiv
  refine ⟨(xs.drop (i / n * n)).take n, ?_, ?_⟩
  · rw [h (i / n), if_pos (by omega)]
  · rw [List.drop_take, List.drop_drop, hdiv]

/-- Every slot of every page. -/
theorem Paged.slot (h : Paged n xs page) (k i : ℕ) :
    (page k).bind (·[i]?) = if i < n then xs[k * n + i]? else none := by
  rw [h k]
  split
  · rw [Option.bind_some, List.getElem?_take, List.getElem?_drop]
  · rename_i hge
    split
    · exact (List.getElem?_eq_none (by omega)).symm
    · rfl

/-- Distinct entries have one slot each. -/
theorem Paged.slot_unique (h : Paged n xs page) (hn : 0 < n) (hnodup : xs.Nodup) (hx : x ∈ xs) :
    ∃ k i, (page k).bind (·[i]?) = some x ∧
      ∀ k' i' : ℕ, (page k').bind (·[i']?) = some x → k' = k ∧ i' = i := by
  obtain ⟨m, hm, hget⟩ := List.getElem_of_mem hx
  have hdiv := Nat.div_add_mod m n
  have hmod := Nat.mod_lt m hn
  refine ⟨m / n, m % n, ?_, ?_⟩
  · rw [h.slot, if_pos hmod, Nat.mul_comm, hdiv, List.getElem?_eq_getElem hm, hget]
  · intro k i hslot
    rw [h.slot] at hslot
    split at hslot
    · rename_i hi
      obtain ⟨hlt, hget'⟩ := List.getElem?_eq_some_iff.mp hslot
      have hsame : k * n + i = m := hnodup.getElem_inj_iff.mp (hget'.trans hget.symm)
      rw [← hsame, Nat.mul_comm, Nat.mul_add_div hn, Nat.mul_add_mod, Nat.div_eq_of_lt hi,
        Nat.mod_eq_of_lt hi]
      exact ⟨rfl, rfl⟩
    · cases hslot

/-- Consecutive reads of the given sizes. -/
def slices (xs : List α) : ℕ → List ℕ → List (List α)
  | _, [] => []
  | start, size :: sizes => (xs.drop start).take size :: slices xs (start + size) sizes

theorem slices_flatten (xs : List α) (start : ℕ) (sizes : List ℕ) :
    (slices xs start sizes).flatten = (xs.drop start).take sizes.sum := by
  induction sizes generalizing start with
  | nil => rw [slices, List.flatten_nil, List.sum_nil, List.take_zero]
  | cons size sizes ih =>
    rw [slices, List.flatten_cons, ih, List.sum_cons, List.take_add, List.drop_drop]

/-! ## Entries filed under a key -/

section Filed

variable {α : Type*} {κ : Type*} [DecidableEq κ] {key : ℕ → κ} {k : κ} {x y : α} {xs : List α}

/-- The entries of `xs`, which begins at position `base`, that are filed under `k`:
position `i` is filed under `key i`. -/
def filedUnder (key : ℕ → κ) (k : κ) : ℕ → List α → List α
  | _, [] => []
  | base, x :: xs =>
    if key base = k then x :: filedUnder key k (base + 1) xs else filedUnder key k (base + 1) xs

/-- How many of the positions from `base` on, before `base + i`, are filed under `k`. -/
def rank (key : ℕ → κ) (k : κ) (base i : ℕ) : ℕ :=
  (List.range' base i).countP fun j => key j = k

theorem rank_succ (key : ℕ → κ) (k : κ) (base i : ℕ) :
    rank key k base (i + 1) = rank key k base i + if key (base + i) = k then 1 else 0 := by
  simp [rank, List.range'_1_concat, List.countP_append, List.countP_singleton]

theorem rank_succ' (key : ℕ → κ) (k : κ) (base i : ℕ) :
    rank key k base (i + 1) = rank key k (base + 1) i + if key base = k then 1 else 0 := by
  simp [rank, List.range'_succ, List.countP_cons]

theorem filedUnder_length (base : ℕ) (xs : List α) :
    (filedUnder key k base xs).length = rank key k base xs.length := by
  induction xs generalizing base with
  | nil => rfl
  | cons x xs ih =>
    rw [List.length_cons, rank_succ', ← ih, filedUnder]
    split <;> simp

theorem filedUnder_push (base : ℕ) (xs : List α) (x : α) :
    filedUnder key k base (xs ++ [x]) =
      filedUnder key k base xs ++ if key (base + xs.length) = k then [x] else [] := by
  induction xs generalizing base with
  | nil => simp [filedUnder]
  | cons y xs ih =>
    rw [List.cons_append, filedUnder, filedUnder, ih, List.length_cons, Nat.add_right_comm,
      Nat.add_assoc]
    split <;> rfl

/-- The entry of a position stands after those of the earlier positions filed with it. -/
theorem filedUnder_getElem? {base q : ℕ} :
    (filedUnder key k base xs)[q]? = some y ↔
      ∃ i, xs[i]? = some y ∧ key (base + i) = k ∧ rank key k base i = q := by
  induction xs generalizing base q with
  | nil => simp [filedUnder]
  | cons x xs ih =>
    have hshift : ∀ i, key (base + (i + 1)) = key (base + 1 + i) := by
      intro i
      rw [Nat.add_right_comm, Nat.add_assoc]
    rw [filedUnder, ← Nat.or_exists_add_one]
    simp only [List.getElem?_cons_zero, List.getElem?_cons_succ, hshift, rank_succ', Nat.add_zero]
    by_cases hk : key base = k
    · rw [if_pos hk]
      cases q with
      | zero => simp [hk, rank]
      | succ q => simp [hk, rank, ih]
    · simp only [hk, if_false, ih, Nat.add_zero, false_and, and_false, false_or]

theorem mem_filedUnder {base : ℕ} :
    y ∈ filedUnder key k base xs ↔ ∃ i, xs[i]? = some y ∧ key (base + i) = k := by
  rw [List.mem_iff_getElem?]
  simp only [filedUnder_getElem?]
  constructor
  · rintro ⟨_, i, hi, hk, -⟩
    exact ⟨i, hi, hk⟩
  · rintro ⟨i, hi, hk⟩
    exact ⟨_, i, hi, hk, rfl⟩

end Filed

/-- Positions in blocks of `n`. -/
theorem rank_div {n : ℕ} (hn : 0 < n) (k base i : ℕ) :
    rank (· / n) k base i = min (base + i) ((k + 1) * n) - max base (k * n) := by
  induction i with
  | zero =>
    show 0 = min base ((k + 1) * n) - max base (k * n)
    omega
  | succ i ih =>
    have hblock : (base + i) / n = k ↔ k * n ≤ base + i ∧ base + i < (k + 1) * n := by
      rw [Nat.div_eq_iff hn, Nat.succ_mul]
      omega
    have hsize : k * n < (k + 1) * n := Nat.mul_lt_mul_of_pos_right (Nat.lt_succ_self k) hn
    rw [rank_succ, ih]
    split <;> omega

end StepFi.Lib

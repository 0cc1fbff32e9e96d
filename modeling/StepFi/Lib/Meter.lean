import Mathlib.Algebra.Order.Ring.Int
import Mathlib.Data.List.Induction
import Mathlib.Tactic.Linarith
import Mathlib.Tactic.Ring

/-!
# Metered fees

A balance owes `num / den` of itself for each complete period. Nobody charges
it on time: `charge n` is asked for at some moment with `n` complete periods
behind it, takes the periods since the last charge at the balance of the
moment, and rounds down. A fee that rounds to nothing leaves its periods to the
next charge.

No period is charged twice (`fee_charge`). How much is charged in all depends
on how often someone asks, within bounds: each charge loses less than one unit
to rounding (`lt_fees`), and a fee charged earlier is itself charged later, at
most once for each period (`charges_balance_le`).
-/

namespace StepFi.Lib

/-- What is owed, and the periods charged so far. -/
structure Meter where
  balance : Int
  charged : Nat

namespace Meter

variable (num den : Int)

/-- The fee of the periods from the last charge to `n`. -/
def fee (m : Meter) (n : Nat) : Int := m.balance * num * (n - m.charged : Nat) / den

def charge (m : Meter) (n : Nat) : Meter :=
  if m.fee num den n = 0 then m else ⟨m.balance + m.fee num den n, n⟩

/-- One charge after another. -/
def charges (m : Meter) (ns : List Nat) : Meter := ns.foldl (charge num den) m

variable {num den : Int} {m : Meter} {n N : Nat} {ns : List Nat}

theorem charges_snoc : m.charges num den (ns ++ [n]) = (m.charges num den ns).charge num den n := by
  simp [charges]

/-! ## One charge -/

theorem charge_balance : (m.charge num den n).balance = m.balance + m.fee num den n := by
  unfold charge
  split
  · rename_i h
    rw [h, Int.add_zero]
  · rfl

theorem charge_of_fee_eq_zero (h : m.fee num den n = 0) : m.charge num den n = m := if_pos h

theorem charge_charged (h : m.fee num den n ≠ 0) : (m.charge num den n).charged = n := by
  rw [charge, if_neg h]

theorem fee_of_le (h : n ≤ m.charged) : m.fee num den n = 0 := by
  rw [fee, Nat.sub_eq_zero_of_le h, Int.natCast_zero, Int.mul_zero, Int.zero_ediv]

theorem lt_of_fee (h : m.fee num den n ≠ 0) : m.charged < n := by
  by_contra hle
  exact h (fee_of_le (Nat.not_lt.mp hle))

theorem charged_le_charge : m.charged ≤ (m.charge num den n).charged := by
  by_cases h : m.fee num den n = 0
  · rw [charge_of_fee_eq_zero h]
  · rw [charge_charged h]
    exact Nat.le_of_lt (lt_of_fee h)

theorem charge_charged_le (h : m.charged ≤ N) (hn : n ≤ N) : (m.charge num den n).charged ≤ N := by
  by_cases hfee : m.fee num den n = 0
  · rwa [charge_of_fee_eq_zero hfee]
  · rwa [charge_charged hfee]

/-- A second charge of the same periods finds nothing to charge. -/
theorem fee_charge : (m.charge num den n).fee num den n = 0 := by
  by_cases h : m.fee num den n = 0
  · rwa [charge_of_fee_eq_zero h]
  · exact fee_of_le (Nat.le_of_eq (charge_charged h).symm)

theorem charges_charged_le (hm : m.charged ≤ N) (hns : ∀ n ∈ ns, n ≤ N) :
    (m.charges num den ns).charged ≤ N := by
  induction ns using List.reverseRecOn with
  | nil => exact hm
  | append_singleton ns n ih =>
    obtain ⟨hpre, hn⟩ := List.forall_mem_append.mp hns
    rw [charges_snoc]
    exact charge_charged_le (ih hpre) (hn n (List.mem_singleton_self n))

/-- Each charge loses less than one unit to rounding. -/
theorem lt_fee_add_one (num : Int) (hden : 0 < den) (m : Meter) (n : Nat) :
    m.balance * num * (n - m.charged : Nat) < den * (m.fee num den n + 1) := by
  rw [Int.mul_comm den]
  exact Int.lt_ediv_add_one_mul_self _ hden

/-- `m'` came from `m` by charges, and grew no more than by one charge for each
period. -/
structure Grown (num den : Int) (m m' : Meter) : Prop where
  charged : m.charged ≤ m'.charged
  balance : m.balance ≤ m'.balance
  growth : m'.balance * den ^ (m'.charged - m.charged) ≤
    m.balance * (den + num) ^ (m'.charged - m.charged)

theorem Grown.refl (m : Meter) : Grown num den m m where
  charged := Nat.le_refl _
  balance := Int.le_refl _
  growth := by simp

section Rate

variable (hnum : 0 ≤ num) (hden : 0 < den)
include hnum hden

theorem fee_nonneg (h0 : 0 ≤ m.balance) : 0 ≤ m.fee num den n :=
  Int.ediv_nonneg (Int.mul_nonneg (Int.mul_nonneg h0 hnum) (Int.natCast_nonneg _)) hden.le

/-- A smaller balance costs no more. -/
theorem fee_mono {m' : Meter} (hcharged : m'.charged = m.charged) (h : m'.balance ≤ m.balance) :
    m'.fee num den n ≤ m.fee num den n := by
  rw [fee, fee, hcharged]
  refine Int.ediv_le_ediv hden ?_
  exact Int.mul_le_mul_of_nonneg_right (Int.mul_le_mul_of_nonneg_right h hnum)
    (Int.natCast_nonneg _)

theorem balance_le_charge (h0 : 0 ≤ m.balance) : m.balance ≤ (m.charge num den n).balance := by
  have := fee_nonneg (n := n) hnum hden h0
  rw [charge_balance]
  omega

/-! ## Many charges -/

/-- Bernoulli's inequality with the denominator cleared. -/
theorem add_mul_pow_le (j : Nat) : (den + num * j) * den ^ j ≤ (den + num) ^ j * den := by
  induction j with
  | zero => simp
  | succ j ih =>
    have hj : 0 ≤ num * num * j := Int.mul_nonneg (Int.mul_nonneg hnum hnum) (Int.natCast_nonneg _)
    have hpow : 0 ≤ den ^ j := (pow_pos hden j).le
    have hstep : (den + num * (j + 1 : Nat)) * den ≤ (den + num * j) * (den + num) := by
      push_cast
      linarith
    calc (den + num * (j + 1 : Nat)) * den ^ (j + 1)
        = (den + num * (j + 1 : Nat)) * den * den ^ j := by ring
      _ ≤ (den + num * j) * (den + num) * den ^ j := Int.mul_le_mul_of_nonneg_right hstep hpow
      _ = (den + num * j) * den ^ j * (den + num) := by ring
      _ ≤ (den + num) ^ j * den * (den + num) := Int.mul_le_mul_of_nonneg_right ih (by omega)
      _ = (den + num) ^ (j + 1) * den := by ring

/-- A charge over `j` periods at once costs no more than one for each period. -/
theorem charge_balance_le (h0 : 0 ≤ m.balance) :
    (m.charge num den n).balance * den ^ (n - m.charged) ≤
      m.balance * (den + num) ^ (n - m.charged) := by
  have hfloor : m.fee num den n * den ≤ m.balance * num * (n - m.charged : Nat) :=
    Int.ediv_mul_le _ (by omega)
  have hpow : 0 ≤ den ^ (n - m.charged) := (pow_pos hden _).le
  rw [charge_balance]
  refine le_of_mul_le_mul_right ?_ hden
  calc (m.balance + m.fee num den n) * den ^ (n - m.charged) * den
      = (m.balance * den + m.fee num den n * den) * den ^ (n - m.charged) := by ring
    _ ≤ (m.balance * den + m.balance * num * (n - m.charged : Nat)) * den ^ (n - m.charged) :=
        Int.mul_le_mul_of_nonneg_right (by omega) hpow
    _ = m.balance * ((den + num * (n - m.charged : Nat)) * den ^ (n - m.charged)) := by ring
    _ ≤ m.balance * ((den + num) ^ (n - m.charged) * den) :=
        Int.mul_le_mul_of_nonneg_left (add_mul_pow_le hnum hden _) h0
    _ = m.balance * (den + num) ^ (n - m.charged) * den := by ring

theorem Grown.charge {m' : Meter} (h : Grown num den m m') (h0 : 0 ≤ m.balance) :
    Grown num den m (m'.charge num den n) := by
  have hbalance := h.balance
  have h0' : 0 ≤ m'.balance := by omega
  by_cases hfee : m'.fee num den n = 0
  · rwa [charge_of_fee_eq_zero hfee]
  · have hlt := lt_of_fee hfee
    have hcharged := h.charged
    have hsplit : n - m.charged = (n - m'.charged) + (m'.charged - m.charged) := by omega
    have hpow : 0 ≤ den ^ (m'.charged - m.charged) := (pow_pos hden _).le
    have hpow' : 0 ≤ (den + num) ^ (n - m'.charged) := (pow_pos (by omega) _).le
    refine ⟨Nat.le_trans hcharged charged_le_charge,
      Int.le_trans hbalance (balance_le_charge hnum hden h0'), ?_⟩
    rw [charge_charged hfee, hsplit, pow_add, pow_add]
    calc (m'.charge num den n).balance * (den ^ (n - m'.charged) * den ^ (m'.charged - m.charged))
        = (m'.charge num den n).balance * den ^ (n - m'.charged) *
            den ^ (m'.charged - m.charged) := by ring
      _ ≤ m'.balance * (den + num) ^ (n - m'.charged) * den ^ (m'.charged - m.charged) :=
          Int.mul_le_mul_of_nonneg_right (charge_balance_le hnum hden h0') hpow
      _ = m'.balance * den ^ (m'.charged - m.charged) * (den + num) ^ (n - m'.charged) := by ring
      _ ≤ m.balance * (den + num) ^ (m'.charged - m.charged) * (den + num) ^ (n - m'.charged) :=
          Int.mul_le_mul_of_nonneg_right h.growth hpow'
      _ = m.balance * ((den + num) ^ (n - m'.charged) *
            (den + num) ^ (m'.charged - m.charged)) := by ring

theorem Grown.charges (h0 : 0 ≤ m.balance) (ns : List Nat) :
    Grown num den m (m.charges num den ns) := by
  induction ns using List.reverseRecOn with
  | nil => exact .refl m
  | append_singleton ns n ih =>
    rw [charges_snoc]
    exact ih.charge hnum hden h0

/-- However often someone asks, a balance grows at most as if it were charged
once for each period. -/
theorem charges_balance_le (h0 : 0 ≤ m.balance) (hm : m.charged ≤ N) (hns : ∀ n ∈ ns, n ≤ N) :
    (m.charges num den ns).balance * den ^ (N - m.charged) ≤
      m.balance * (den + num) ^ (N - m.charged) := by
  have hle : (m.charges num den ns).charged ≤ N := charges_charged_le hm hns
  obtain ⟨hge, -, hgrowth⟩ := Grown.charges hnum hden h0 ns
  generalize (m.charges num den ns).charged = charged at *
  have hsplit : N - m.charged = (charged - m.charged) + (N - charged) := by omega
  have hpow : 0 ≤ den ^ (N - charged) := (pow_pos hden _).le
  have hscaled : 0 ≤ m.balance * (den + num) ^ (charged - m.charged) :=
    Int.mul_nonneg h0 (pow_pos (by omega) _).le
  rw [hsplit, pow_add, pow_add, ← Int.mul_assoc, ← Int.mul_assoc]
  calc (m.charges num den ns).balance * den ^ (charged - m.charged) * den ^ (N - charged)
      ≤ m.balance * (den + num) ^ (charged - m.charged) * den ^ (N - charged) :=
        Int.mul_le_mul_of_nonneg_right hgrowth hpow
    _ ≤ m.balance * (den + num) ^ (charged - m.charged) * (den + num) ^ (N - charged) :=
        Int.mul_le_mul_of_nonneg_left (pow_le_pow_left₀ hden.le (by omega) _) hscaled

/-- The fees of `k` charges fall short of the exact fee on the first balance by
less than `k`. -/
theorem le_fees (h0 : 0 ≤ m.balance) (ns : List Nat) :
    m.balance * num * ((m.charges num den ns).charged - m.charged : Nat) ≤
      den * ((m.charges num den ns).balance - m.balance + ns.length) := by
  induction ns using List.reverseRecOn with
  | nil => simp [charges]
  | append_singleton ns n ih =>
    obtain ⟨hge, hbalance, -⟩ := Grown.charges hnum hden h0 ns
    rw [charges_snoc, List.length_append, List.length_singleton]
    generalize m.charges num den ns = m' at *
    by_cases hfee : m'.fee num den n = 0
    · rw [charge_of_fee_eq_zero hfee]
      push_cast
      linarith
    · have hlt := lt_of_fee hfee
      have hsplit : n - m.charged = (m'.charged - m.charged) + (n - m'.charged) := by omega
      have hless : m.balance * num * (n - m'.charged : Nat) ≤
          m'.balance * num * (n - m'.charged : Nat) :=
        Int.mul_le_mul_of_nonneg_right (Int.mul_le_mul_of_nonneg_right hbalance hnum)
          (Int.natCast_nonneg _)
      have hlast := lt_fee_add_one num hden m' n
      rw [charge_charged hfee, charge_balance, hsplit]
      push_cast
      linarith

/-- So it is up to the periods the last charge finds, whether it charges them or
they round to nothing. -/
theorem lt_fees (h0 : 0 ≤ m.balance) (hm : m.charged ≤ N) (hns : ∀ n ∈ ns, n ≤ N) :
    m.balance * num * (N - m.charged : Nat) <
      den * ((m.charges num den (ns ++ [N])).balance - m.balance + (ns.length + 1)) := by
  have hrun := le_fees hnum hden h0 ns
  have hle : (m.charges num den ns).charged ≤ N := charges_charged_le hm hns
  obtain ⟨hge, hbalance, -⟩ := Grown.charges hnum hden h0 ns
  have hlast := lt_fee_add_one num hden (m.charges num den ns) N
  rw [charges_snoc, charge_balance]
  generalize m.charges num den ns = m' at *
  have hsplit : N - m.charged = (m'.charged - m.charged) + (N - m'.charged) := by omega
  have hless : m.balance * num * (N - m'.charged : Nat) ≤
      m'.balance * num * (N - m'.charged : Nat) :=
    Int.mul_le_mul_of_nonneg_right (Int.mul_le_mul_of_nonneg_right hbalance hnum)
      (Int.natCast_nonneg _)
  rw [hsplit]
  push_cast at *
  linarith

end Rate

end Meter

end StepFi.Lib

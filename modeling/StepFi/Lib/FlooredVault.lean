import Mathlib.Algebra.BigOperators.Ring.Finset
import Mathlib.Algebra.Order.BigOperators.Group.Finset
import Mathlib.Algebra.Order.Ring.Int
import Mathlib.Data.Int.Basic
import Mathlib.Tactic.Linarith
import Mathlib.Tactic.Ring

/-!
# Vaults with a floored share price

A vault holds assets `E` against `S` shares and quotes the price of a share as
a whole number of units `1/P`: the exact price rounded down, and never less
than one unit. Both roundings can quote a trader a price below (the floor) or
above (the clamp) the exact one, so neither a deposit nor a withdrawal alone is
safe for the other holders.

What is safe is the whole of what one group of traders does, starting without
shares while the other holders stand still: the group's net payment covers its
shares at the price `q₀` quoted when it started (`Covered`). A trade at a price
above `q₀` keeps this because the exact price has then risen past `q₀`, and the
rise was paid for by the group.

The quote itself never falls in either trade (`price_le_deposit`,
`price_le_withdraw`), and a vault that has at least one asset for each share
keeps that (`par_deposit`, `par_withdraw`). What all holders could withdraw at
the quote is bounded by `claims_le`.
-/

namespace StepFi.Lib.FlooredVault

variable {P E S E₀ S₀ net held a k m r : ℤ}

/-- The quoted price of a share, in units of `1/P`. -/
def price (P E S : ℤ) : ℤ := max 1 (E * P / S)

theorem one_le_price : 1 ≤ price P E S := le_max_left _ _

/-- A price above one unit is the exact price rounded down. -/
theorem price_mul_le (h : 1 < price P E S) (hS : 0 < S) : price P E S * S ≤ E * P := by
  have hq : price P E S = E * P / S := by
    rcases max_choice 1 (E * P / S) with hm | hm
    · simp only [price] at h
      omega
    · exact hm
  rw [hq]
  exact Int.ediv_mul_le _ (by omega)

/-- So is the price of shares that are worth one unit at least. -/
theorem price_of_le (hS : 0 < S) (h : S ≤ E * P) : price P E S = E * P / S :=
  max_eq_right (Int.le_ediv_of_mul_le hS (by simpa using h))

/-- Shares worth less are quoted at the clamp. -/
theorem price_of_lt (h0 : 0 ≤ E * P) (h : E * P < S) : price P E S = 1 := by
  rw [price, Int.ediv_eq_zero_of_lt h0 h]
  rfl

theorem price_mul_le_of_worth (hS : 0 < S) (h : S ≤ E * P) : price P E S * S ≤ E * P := by
  rw [price_of_le hS h]
  exact Int.ediv_mul_le _ (by omega)

theorem lt_price_add_one_mul (hS : 0 < S) : E * P < (price P E S + 1) * S := by
  have hfloor : E * P < (E * P / S + 1) * S := Int.lt_ediv_add_one_mul_self _ hS
  have hle : E * P / S + 1 ≤ price P E S + 1 := by
    have := le_max_right 1 (E * P / S)
    simp only [price]
    omega
  exact lt_of_lt_of_le hfloor (Int.mul_le_mul_of_nonneg_right hle (by omega))

/-- What a group that entered a vault of assets `E₀` and shares `S₀` without
shares of its own has paid in, net, covers the shares it holds at the price the
vault quoted then. -/
structure Covered (P E₀ S₀ net held : ℤ) : Prop where
  held_nonneg : 0 ≤ held
  paid : held * price P E₀ S₀ ≤ net * P

theorem Covered.start : Covered P E₀ S₀ 0 0 := ⟨le_refl _, by simp⟩

/-- The group is never ahead of what it paid in. -/
theorem Covered.net_nonneg (h : Covered P E₀ S₀ net held) (hP : 0 < P) : 0 ≤ net := by
  have hq : 0 ≤ price P E₀ S₀ := le_trans zero_le_one one_le_price
  have h0 : 0 ≤ net * P := le_trans (mul_nonneg h.held_nonneg hq) h.paid
  exact nonneg_of_mul_nonneg_left h0 hP

/-- The quote never falls below the one the group entered at. -/
theorem Covered.price_le (h : Covered P E₀ S₀ net held) (hS : 0 < S₀) :
    price P E₀ S₀ ≤ price P (E₀ + net) (S₀ + held) := by
  rcases eq_or_lt_of_le (one_le_price (P := P) (E := E₀) (S := S₀)) with h1 | h1
  · rw [← h1]
    exact one_le_price
  · have hexact := price_mul_le h1 hS
    have hpaid := h.paid
    have hpos : 0 < S₀ + held := by
      have := h.held_nonneg
      omega
    have hmul : price P E₀ S₀ * (S₀ + held) ≤ (E₀ + net) * P := by
      calc price P E₀ S₀ * (S₀ + held)
          = price P E₀ S₀ * S₀ + held * price P E₀ S₀ := by ring
        _ ≤ E₀ * P + net * P := add_le_add hexact hpaid
        _ = (E₀ + net) * P := by ring
    exact le_trans (Int.le_ediv_of_mul_le hpos hmul) (le_max_right _ _)

/-- A deposit of `a` for at most the shares the quote gives. -/
theorem Covered.deposit (h : Covered P E₀ S₀ net held) (hS : 0 < S₀) (hk : 0 ≤ k)
    (hissued : k * price P (E₀ + net) (S₀ + held) ≤ a * P) :
    Covered P E₀ S₀ (net + a) (held + k) := by
  refine ⟨add_nonneg h.held_nonneg hk, ?_⟩
  have hquote : k * price P E₀ S₀ ≤ a * P :=
    le_trans (Int.mul_le_mul_of_nonneg_left (h.price_le hS) hk) hissued
  calc (held + k) * price P E₀ S₀
      = held * price P E₀ S₀ + k * price P E₀ S₀ := by ring
    _ ≤ net * P + a * P := add_le_add h.paid hquote
    _ = (net + a) * P := by ring

/-- Past a rise of the quote the group's payments cover its shares at the new
quote: the assets the group found were worth less than that per share. -/
theorem Covered.risen (h : Covered P E₀ S₀ net held) (hS : 0 < S₀)
    (hrise : price P E₀ S₀ < price P (E₀ + net) (S₀ + held)) :
    held * price P (E₀ + net) (S₀ + held) ≤ net * P := by
  have hheld := h.held_nonneg
  have h1 : 1 < price P (E₀ + net) (S₀ + held) := lt_of_le_of_lt one_le_price hrise
  have hexact := price_mul_le h1 (by omega)
  have hfound : E₀ * P < (price P E₀ S₀ + 1) * S₀ := lt_price_add_one_mul hS
  have hstep : (price P E₀ S₀ + 1) * S₀ ≤ price P (E₀ + net) (S₀ + held) * S₀ :=
    Int.mul_le_mul_of_nonneg_right hrise (by omega)
  nlinarith

/-- A withdrawal of `m` shares for at most their value at the quote. -/
theorem Covered.withdraw (h : Covered P E₀ S₀ net held) (hS : 0 < S₀) (hmh : m ≤ held)
    (hpaid : r * P ≤ m * price P (E₀ + net) (S₀ + held)) :
    Covered P E₀ S₀ (net - r) (held - m) := by
  have hrest : 0 ≤ held - m := by omega
  refine ⟨hrest, ?_⟩
  have hat : held * price P (E₀ + net) (S₀ + held) ≤ net * P := by
    rcases eq_or_lt_of_le (h.price_le hS) with heq | hlt
    · rw [← heq]
      exact h.paid
    · exact h.risen hS hlt
  calc (held - m) * price P E₀ S₀
      ≤ (held - m) * price P (E₀ + net) (S₀ + held) :=
        Int.mul_le_mul_of_nonneg_left (h.price_le hS) hrest
    _ = held * price P (E₀ + net) (S₀ + held) - m * price P (E₀ + net) (S₀ + held) := by
        ring
    _ ≤ net * P - r * P := sub_le_sub hat hpaid
    _ = (net - r) * P := by ring

/-! ## The quote after one trade -/

variable {E' : ℤ}

theorem price_mono (hE : E ≤ E') (hP : 0 ≤ P) (hS : 0 < S) : price P E S ≤ price P E' S :=
  max_le_max_left 1 (Int.ediv_le_ediv hS (Int.mul_le_mul_of_nonneg_right hE hP))

theorem price_le_deposit (hS : 0 < S) (hk : 0 ≤ k) (hissued : k * price P E S ≤ a * P) :
    price P E S ≤ price P (E + a) (S + k) := by
  have hstart : Covered P E S 0 0 := Covered.start
  have hcovered := hstart.deposit hS hk (by simpa using hissued)
  simpa using hcovered.price_le hS

/-- Shares that leave for at most their value at the quote do not lower it. -/
theorem price_le_withdraw (hS : 0 < S) (hm : m < S) (hpaid : r * P ≤ m * price P E S) :
    price P E S ≤ price P (E - r) (S - m) := by
  rcases eq_or_lt_of_le (one_le_price (P := P) (E := E) (S := S)) with h1 | h1
  · rw [← h1]
    exact one_le_price
  · have hexact := price_mul_le h1 hS
    have hmul : price P E S * (S - m) ≤ (E - r) * P := by
      calc price P E S * (S - m) = price P E S * S - m * price P E S := by ring
        _ ≤ E * P - r * P := sub_le_sub hexact hpaid
        _ = (E - r) * P := by ring
    exact le_trans (Int.le_ediv_of_mul_le (by omega) hmul) (le_max_right _ _)

/-! ## Assets that come or go by themselves -/

/-- What `c` assets more, or fewer when negative, make for each of the shares, rounded
down, the quote goes up by. Only a gain that finds the quote at the clamp may be lost
on it. -/
theorem price_add_le {c : ℤ} (hP : 0 ≤ P) (hS : 0 < S) (h : S ≤ E * P ∨ c ≤ 0) :
    price P E S + c * P / S ≤ price P (E + c) S := by
  have hfloors : E * P / S + c * P / S ≤ (E + c) * P / S := by
    refine Int.le_ediv_of_mul_le hS ?_
    calc (E * P / S + c * P / S) * S
        = E * P / S * S + c * P / S * S := by ring
      _ ≤ E * P + c * P := add_le_add (Int.ediv_mul_le _ (by omega)) (Int.ediv_mul_le _ (by omega))
      _ = (E + c) * P := by ring
  have hexact : E * P / S + c * P / S ≤ price P (E + c) S := le_trans hfloors (le_max_right _ _)
  rcases h with hworth | hc
  · rwa [price_of_le hS hworth]
  · have hfall : c * P / S ≤ 0 := by
      have hcP : c * P ≤ 0 := mul_nonpos_of_nonpos_of_nonneg hc hP
      have hle : c * P / S ≤ 0 / S := Int.ediv_le_ediv hS hcP
      rwa [Int.zero_ediv] at hle
    have hone : 1 + c * P / S ≤ price P (E + c) S :=
      le_trans (by omega) (one_le_price (P := P) (E := E + c) (S := S))
    rcases max_choice 1 (E * P / S) with hm | hm
    · rwa [price, hm]
    · rwa [price, hm]

/-! ## One asset for each share -/

theorem unit_le_price (hP : 0 ≤ P) (hS : 0 < S) (h : S ≤ E) : P ≤ price P E S := by
  have hmul : P * S ≤ E * P := by
    rw [mul_comm P S]
    exact Int.mul_le_mul_of_nonneg_right h hP
  exact le_trans (Int.le_ediv_of_mul_le hS hmul) (le_max_right _ _)

theorem par_deposit (hP : 0 < P) (hS : 0 < S) (h : S ≤ E) (hk : 0 ≤ k)
    (hissued : k * price P E S ≤ a * P) : S + k ≤ E + a := by
  have hunit : k * P ≤ a * P :=
    le_trans (Int.mul_le_mul_of_nonneg_left (unit_le_price (by omega) hS h) hk) hissued
  have := le_of_mul_le_mul_right hunit hP
  omega

theorem par_withdraw (hP : 1 < P) (hS : 0 < S) (h : S ≤ E) (hm : m ≤ S)
    (hpaid : r * P ≤ m * price P E S) : S - m ≤ E - r := by
  have hunit := unit_le_price (P := P) (by omega) hS h
  have hexact := price_mul_le (lt_of_lt_of_le hP hunit) hS
  have hrest : P * (S - m) ≤ P * (E - r) := by
    calc P * (S - m) ≤ price P E S * (S - m) := Int.mul_le_mul_of_nonneg_right hunit (by omega)
      _ = price P E S * S - m * price P E S := by ring
      _ ≤ E * P - r * P := sub_le_sub hexact hpaid
      _ = P * (E - r) := by ring
  exact le_of_mul_le_mul_left hrest (by omega)

/-! ## Trades against the exact value

The exact price is `E / S`. The price is floored in the denominator of what a
deposit is issued, so that its rounding favours the depositor and the rounding of
the shares the vault; the two remainders decide. A withdrawal is rounded down
twice, unless the quote is the clamp. -/

/-- A deposit of `a` is issued no more than its exact share of the vault exactly
when the remainder of its shares outweighs the remainder of the price. -/
theorem issued_le_exact_iff (hP : 0 < P) (hE : 0 < E) (hS : 0 < S) (ha : 0 ≤ a) :
    a * P / price P E S * E ≤ a * S ↔
      E * P < S ∨ a * (E * P % S) ≤ a * P % (E * P / S) * E := by
  have h0 : 0 ≤ E * P := Int.mul_nonneg (by omega) (by omega)
  rcases lt_or_ge (E * P) S with hclamp | hworth
  · have hle : a * (E * P) ≤ a * S := Int.mul_le_mul_of_nonneg_left (by omega) ha
    rw [price_of_lt h0 hclamp, Int.ediv_one]
    refine ⟨fun _ => .inl hclamp, fun _ => ?_⟩
    calc a * P * E = a * (E * P) := by ring
      _ ≤ a * S := hle
  · have hone : 1 ≤ E * P / S := Int.le_ediv_of_mul_le hS (by simpa using hworth)
    have hprice := Int.mul_ediv_add_emod (E * P) S
    have hissued := Int.mul_ediv_add_emod (a * P) (E * P / S)
    rw [price_of_le hS hworth]
    generalize E * P / S = q at *
    generalize E * P % S = e at *
    generalize a * P / q = k at *
    generalize a * P % q = f at *
    have hscaled : q * (a * S - k * E) = f * E - a * e := by
      calc q * (a * S - k * E) = a * (S * q) - q * k * E := by ring
        _ = a * (E * P - e) - (a * P - f) * E := by rw [← hprice, ← hissued]; ring
        _ = f * E - a * e := by ring
    constructor
    · intro h
      have : 0 ≤ q * (a * S - k * E) := Int.mul_nonneg (by omega) (by omega)
      exact .inr (by omega)
    · rintro (h | h)
      · omega
      · have : 0 ≤ q * (a * S - k * E) := by omega
        have := nonneg_of_mul_nonneg_right this (by omega)
        omega

/-- A withdrawal of `m` shares returns no more than their exact value exactly when
the quote is not the clamp, or the shares that are not a multiple of `P` make up
for it. -/
theorem returned_le_exact_iff (hP : 0 < P) (hE : 0 < E) (hS : 0 < S) (hm : 0 ≤ m) :
    m * price P E S / P * S ≤ m * E ↔ S ≤ E * P ∨ m / P * (S - E * P) ≤ m % P * E := by
  have h0 : 0 ≤ E * P := Int.mul_nonneg (by omega) (by omega)
  rcases lt_or_ge (E * P) S with hclamp | hworth
  · rw [price_of_lt h0 hclamp, mul_one]
    have hfloor := Int.mul_ediv_add_emod m P
    generalize m / P = k at *
    generalize m % P = f at *
    have hover : k * S - m * E = k * (S - E * P) - f * E := by
      rw [← hfloor]
      ring
    constructor
    · exact fun h => .inr (by omega)
    · rintro (h | h)
      · omega
      · omega
  · refine ⟨fun _ => .inl hworth, fun _ => ?_⟩
    have hfloor : m * price P E S / P * P ≤ m * price P E S := Int.ediv_mul_le _ (by omega)
    have hquote := price_mul_le_of_worth hS hworth
    have hscaled : m * price P E S / P * S * P ≤ m * E * P := by
      calc m * price P E S / P * S * P = m * price P E S / P * P * S := by ring
        _ ≤ m * price P E S * S := Int.mul_le_mul_of_nonneg_right hfloor (by omega)
        _ = m * (price P E S * S) := by ring
        _ ≤ m * (E * P) := Int.mul_le_mul_of_nonneg_left hquote hm
        _ = m * E * P := by ring
    exact le_of_mul_le_mul_right hscaled hP

/-! ## What all holders could withdraw -/

variable {ι : Type*} {ps : Finset ι} {holding : ι → ℤ} {q : ℤ}

/-- The floored claims of the holders are worth at most all their shares. -/
theorem claims_le (hP : P ≠ 0) :
    (∑ p ∈ ps, holding p * q / P) * P ≤ (∑ p ∈ ps, holding p) * q := by
  rw [Finset.sum_mul, Finset.sum_mul]
  exact Finset.sum_le_sum fun p _ => Int.ediv_mul_le _ hP

end StepFi.Lib.FlooredVault

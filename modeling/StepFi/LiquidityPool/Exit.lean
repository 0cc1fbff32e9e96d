import StepFi.LiquidityPool.Price

/-!
# Leaving the pool

A withdrawal can be refused for want of liquidity. `Ready` is a condition under
which it is not: the pool quotes at least one token for a share, holds what it
reports as available, and the shares that stay behind, at one token each, cover
what is lent. A withdrawal keeps the condition, and pays at least the quote the
condition started from.
-/

namespace StepFi.LiquidityPool

open Lib Accounts

variable {d : Deployment} {env : Env} {p : Storage} {s : State}
variable {q shares rest : Int} {provider : Address}

/-- The pool can burn `asked` more shares at `q` or better. -/
structure Ready (d : Deployment) (q asked : Int) (s : State) : Prop where
  accounts : s.pool.accounts.Sound
  unlocked : s.pool.reentrancyLocked = false
  unpaused : s.pool.paused = false
  token : s.pool.token = some d.token
  held : s.pool.totalLiquidity - s.pool.lockedLiquidity ≤ s.token.balance d.pool
  par : s.pool.accounts.AtPar
  fits : I128.Fits ((s.pool.totalLiquidity + deadSharesAmount) * sharePricePrecision)
  quoted : q ≤ s.pool.accounts.quote s.pool.totalShares
  covered : s.pool.lockedLiquidity + deadSharesAmount + asked ≤ s.pool.totalShares

/-- The shares left behind are worth at least one token each after a withdrawal. -/
theorem Ready.par_after (h : Ready d q (shares + rest) s) (hpos : 0 < shares) (hrest : 0 ≤ rest) :
    s.pool.totalShares - shares ≤ s.pool.totalLiquidity + deadSharesAmount
      - shares * s.pool.accounts.quote s.pool.totalShares / sharePricePrecision := by
  have hlocked : 0 ≤ s.pool.lockedLiquidity := h.accounts.locked_nonneg
  have hcovered := h.covered
  simp only [deadSharesAmount] at hcovered
  exact FlooredVault.par_withdraw (by decide) (by omega) h.par (by omega)
    (Int.ediv_mul_le _ (by decide))

/-- Everything `withdraw` computes stays an `i128`. -/
theorem Ready.worth_fits (h : Ready d q (shares + rest) s) (hpos : 0 < shares) (hrest : 0 ≤ rest) :
    0 ≤ shares * s.pool.accounts.quote s.pool.totalShares ∧
      I128.Fits (shares * s.pool.accounts.quote s.pool.totalShares) := by
  have hlocked : 0 ≤ s.pool.lockedLiquidity := h.accounts.locked_nonneg
  have hT : 0 ≤ s.pool.totalLiquidity := h.accounts.total_nonneg
  have hcovered := h.covered
  have hpar : s.pool.totalShares ≤ s.pool.totalLiquidity + deadSharesAmount := h.par
  simp only [deadSharesAmount] at hcovered hpar
  have hone : 1 ≤ s.pool.accounts.quote s.pool.totalShares := FlooredVault.one_le_price
  have h0 : 0 ≤ shares * s.pool.accounts.quote s.pool.totalShares :=
    Int.mul_nonneg (by omega) (by omega)
  have hworth : s.pool.accounts.quote s.pool.totalShares * s.pool.totalShares
      ≤ (s.pool.totalLiquidity + deadSharesAmount) * sharePricePrecision := by
    refine FlooredVault.price_mul_le_of_worth (by omega) ?_
    show s.pool.totalShares ≤ (s.pool.totalLiquidity + 1000) * 10000
    omega
  refine ⟨h0, I128.fits_of_le h.fits h0 ?_⟩
  calc shares * s.pool.accounts.quote s.pool.totalShares
      ≤ s.pool.totalShares * s.pool.accounts.quote s.pool.totalShares :=
        Int.mul_le_mul_of_nonneg_right (by omega) (by omega)
    _ = s.pool.accounts.quote s.pool.totalShares * s.pool.totalShares := Int.mul_comm ..
    _ ≤ (s.pool.totalLiquidity + deadSharesAmount) * sharePricePrecision := hworth

theorem quoted_fits {price : Int} (h : getSharePrice p = .ok price) (hS : 0 < p.totalShares) :
    I128.Fits ((p.totalLiquidity + deadSharesAmount) * sharePricePrecision) := by
  have hne : p.totalShares ≠ 0 := by omega
  simp only [getSharePrice, calculateSharePriceInternal, hne, if_false, bind_ok, pure_ok,
    addI128_ok, mulI128_ok] at h
  obtain ⟨_, ⟨-, rfl⟩, _, ⟨hfits, -⟩, -⟩ := h
  exact hfits

theorem quote_succeeds (hT : 0 ≤ p.totalLiquidity) (hS : 0 < p.totalShares)
    (hfits : I128.Fits ((p.totalLiquidity + deadSharesAmount) * sharePricePrecision)) :
    calculateSharePriceInternal p = .ok (p.accounts.quote p.totalShares) := by
  have hne : p.totalShares ≠ 0 := by omega
  have h0 : 0 ≤ (p.totalLiquidity + deadSharesAmount) * sharePricePrecision := by
    simp only [deadSharesAmount, sharePricePrecision]
    omega
  have hsum : I128.Fits (p.totalLiquidity + deadSharesAmount) := by
    refine I128.fits_of_le hfits ?_ ?_ <;> simp only [deadSharesAmount, sharePricePrecision] <;>
      omega
  have hdiv : I128.Fits (((p.totalLiquidity + deadSharesAmount) * sharePricePrecision).tdiv
      p.totalShares) := by
    rw [Int.tdiv_eq_ediv_of_nonneg h0]
    exact I128.fits_of_le hfits (Int.ediv_nonneg h0 (by omega)) (Int.ediv_le_self _ h0)
  have hprice : ∃ price, calculateSharePriceInternal p = .ok price := by
    simp only [calculateSharePriceInternal, hne, if_false, bind_ok, pure_ok, addI128_ok,
      mulI128_ok, divI128_ok]
    exact ⟨_, _, ⟨hsum, rfl⟩, _, ⟨hfits, rfl⟩, _, ⟨hne, hdiv, rfl⟩, rfl⟩
  obtain ⟨price, hprice⟩ := hprice
  rw [hprice, sharePrice_spec hprice hT hS]
  rfl

/-- The state a withdrawal of `shares` for `r` tokens leaves. -/
def withdrawn (d : Deployment) (provider : Address) (shares r : Int) (s : State) : State where
  pool := { s.pool with
    lpShares := Function.update s.pool.lpShares provider (s.pool.lpShares provider - shares)
    totalShares := s.pool.totalShares - shares
    totalLiquidity := s.pool.totalLiquidity - r }
  token := s.token.move d.pool provider r

/-- A ready pool pays a provider who signs. -/
theorem Ready.pays (h : Ready d q (shares + rest) s) (hpos : 0 < shares) (hrest : 0 ≤ rest)
    (hle : shares ≤ s.pool.lpShares provider) (hauth : env.auths provider = true) :
    let r := shares * s.pool.accounts.quote s.pool.totalShares / sharePricePrecision
    withdraw d env provider shares s = .ok (r, withdrawn d provider shares r s) := by
  intro r
  have hlocked : 0 ≤ s.pool.lockedLiquidity := h.accounts.locked_nonneg
  have hT : 0 ≤ s.pool.totalLiquidity := h.accounts.total_nonneg
  have hcovered := h.covered
  have hpar : s.pool.totalShares ≤ s.pool.totalLiquidity + deadSharesAmount := h.par
  have hafter := h.par_after hpos hrest
  obtain ⟨h0, hworth⟩ := h.worth_fits hpos hrest
  have hr0 : 0 ≤ r := Int.ediv_nonneg h0 (by decide)
  have hr : (shares * s.pool.accounts.quote s.pool.totalShares).tdiv sharePricePrecision = r :=
    Int.tdiv_eq_ediv_of_nonneg h0
  have hprice : calculateSharePriceInternal { s.pool with reentrancyLocked := true }
      = .ok (s.pool.accounts.quote s.pool.totalShares) := by
    refine quote_succeeds (p := s.pool) hT ?_ h.fits
    simp only [deadSharesAmount] at hcovered
    omega
  have hfits : ∀ x : Int, 0 ≤ x → x ≤ s.pool.totalLiquidity + deadSharesAmount → I128.Fits x := by
    intro x hx hxle
    refine I128.fits_of_le h.fits hx ?_
    simp only [deadSharesAmount, sharePricePrecision] at hxle ⊢
    omega
  have hheld : s.pool.lpShares provider ≤ s.pool.totalShares := by
    have hsum := h.accounts.burn_lt (Int.lt_of_lt_of_le hpos hle) (Int.le_refl _)
    exact Int.le_of_lt hsum.2
  change s.pool.totalShares - shares ≤ s.pool.totalLiquidity + deadSharesAmount - r at hafter
  have hcash := h.held
  simp only [deadSharesAmount] at hcovered hafter hpar hfits
  have hworthFits : I128.Fits r := hfits r hr0 (by omega)
  have havail : r ≤ s.pool.totalLiquidity - s.pool.lockedLiquidity := by omega
  have hpaid : r ≤ s.token.balance d.pool := by omega
  have hdiff : I128.Fits (s.pool.totalLiquidity - s.pool.lockedLiquidity) :=
    hfits _ (by omega) (by omega)
  have hleft : I128.Fits (s.pool.lpShares provider - shares) := hfits _ (by omega) (by omega)
  have hsupply : I128.Fits (s.pool.totalShares - shares) := hfits _ (by omega) (by omega)
  have htotal : I128.Fits (s.pool.totalLiquidity - r) := hfits _ (by omega) (by omega)
  simp only [withdraw, bind_ok, pure_ok, requireAuth_ok, ensure_ok, exists_const,
    requireNotPaused, enterNonReentrant_ok, subI128_ok, mulI128_ok, divI128_ok, getToken,
    demand_ok, Token.transferAt_ok]
  refine ⟨hauth, h.unpaused, hpos, _, ⟨h.unlocked, rfl⟩, hle, _, hprice, _, ⟨hworth, rfl⟩, _,
    ⟨by decide, hr ▸ hworthFits, rfl⟩, _, ⟨hdiff, rfl⟩, ?_⟩
  rw [hr]
  refine ⟨havail, _, ⟨hleft, rfl⟩, _, ⟨hsupply, rfl⟩, _, ⟨htotal, rfl⟩, _, h.token, _,
    ⟨rfl, env.covers_self .., hr0, hpaid, rfl⟩, ?_⟩
  simp only [exitNonReentrant, withdrawn, h.unlocked]

/-- Whoever withdraws, the pool stays ready for the others. -/
theorem Ready.withdrawn (h : Ready d q (shares + rest) s) (hpos : 0 < shares) (hrest : 0 ≤ rest)
    (hle : shares ≤ s.pool.lpShares provider) :
    let r := shares * s.pool.accounts.quote s.pool.totalShares / sharePricePrecision
    Ready d q rest (LiquidityPool.withdrawn d provider shares r s) := by
  intro r
  have hlocked : 0 ≤ s.pool.lockedLiquidity := h.accounts.locked_nonneg
  have hcovered := h.covered
  have hafter := h.par_after hpos hrest
  obtain ⟨h0, -⟩ := h.worth_fits hpos hrest
  have hr0 : 0 ≤ r := Int.ediv_nonneg h0 (by decide)
  have hlt := (h.accounts.burn_lt hpos hle).2
  have hmoves : s.pool.accounts.Moves
      (LiquidityPool.withdrawn d provider shares r s).pool.accounts := by
    refine .withdraw provider shares r hpos hle rfl ?_
    change s.pool.totalShares - shares ≤ s.pool.totalLiquidity + deadSharesAmount - r at hafter
    change r ≤ s.pool.totalLiquidity - s.pool.lockedLiquidity
    simp only [deadSharesAmount] at hcovered hafter
    omega
  exact {
    accounts := hmoves.sound h.accounts
    unlocked := h.unlocked
    unpaused := h.unpaused
    token := h.token
    held := by
      have hcash := h.held
      show s.pool.totalLiquidity - r - s.pool.lockedLiquidity
        ≤ (s.token.move d.pool provider r).balance d.pool
      rw [Token.move_balance, if_pos rfl]
      split <;> omega
    par := hmoves.atPar h.accounts h.par (.inr (Int.sub_lt_self _ hpos))
    fits := by
      have hT : 0 ≤ s.pool.totalLiquidity - r :=
        (hmoves.sound h.accounts).total_nonneg
      refine I128.fits_of_le h.fits ?_ ?_ <;>
        simp only [LiquidityPool.withdrawn, deadSharesAmount, sharePricePrecision] <;> omega
    quoted := by
      have hmono := FlooredVault.price_le_withdraw (by omega) hlt (returned_le (r := r) rfl)
      refine Int.le_trans h.quoted (Int.le_trans hmono (Int.le_of_eq ?_))
      show FlooredVault.price _ _ _ = FlooredVault.price _ (s.pool.totalLiquidity - r + _) _
      congr 1
      simp only [Storage.accounts]
      omega
    covered := by
      show s.pool.lockedLiquidity + deadSharesAmount + rest ≤ s.pool.totalShares - shares
      omega }

end StepFi.LiquidityPool

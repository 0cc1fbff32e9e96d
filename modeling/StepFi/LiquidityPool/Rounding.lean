import StepFi.LiquidityPool.Price

/-!
# Rounding in a deposit and in a withdrawal

The exact price of a share is `(total_liquidity + 1000) / total_shares`. A deposit
divides by the price after flooring it, which favours the depositor, and floors
the shares, which favours the pool; it issues no more than the exact number
exactly when the second remainder outweighs the first (`deposit_fair_iff`). A
withdrawal is floored twice, but a price that floors to `0` is quoted as `1`, and
then it can return more than the shares are worth (`withdraw_fair_iff`).
-/

namespace StepFi.LiquidityPool

open Lib Accounts

variable {d : Deployment} {env : Env} {s s' : State} {provider : Address}
variable {amount issued shares returned : Int}

/-- Real and virtual tokens, that the price is taken of. -/
def Storage.effectiveLiquidity (p : Storage) : Int := p.totalLiquidity + deadSharesAmount

theorem Accounts.Sound.effective_pos {p : Storage} (hs : p.accounts.Sound) :
    0 < p.effectiveLiquidity := by
  have hT : 0 ≤ p.totalLiquidity := hs.total_nonneg
  show (0 : Int) < p.totalLiquidity + 1000
  omega

/-- The price is the clamp, or the remainder of the amount's shares outweighs the
remainder of the price. -/
def Storage.IssuesDown (p : Storage) (amount : Int) : Prop :=
  let supply := (seedDeadShares p).totalShares
  let scaled := p.effectiveLiquidity * sharePricePrecision
  scaled < supply ∨
    amount * (scaled % supply)
      ≤ amount * sharePricePrecision % (scaled / supply) * p.effectiveLiquidity

/-- A deposit issues at most the exact proportional number of shares exactly when
`IssuesDown` holds of the state before it. -/
theorem deposit_fair_iff (h : Reachable Deployed (Step d) s)
    (hdeposit : deposit d env provider amount s = .ok (issued, s')) :
    issued * (s.pool.totalLiquidity + deadSharesAmount)
        ≤ amount * (seedDeadShares s.pool).totalShares ↔
      s.pool.IssuesDown amount := by
  have hs := sound_of_reachable h
  obtain ⟨hmin, -, hissued, -⟩ := deposit_accounts hs hdeposit
  have hsupply : (seedDeadShares s.pool).totalShares = s.pool.accounts.seeded := by
    rw [seedDeadShares_eq]
    rfl
  have hamount : 0 ≤ amount := by
    simp only [minAmount] at hmin
    omega
  rw [hissued, Storage.IssuesDown, hsupply]
  exact FlooredVault.issued_le_exact_iff (by decide) hs.effective_pos hs.seeded_pos hamount

/-- A provider deposits `10000`, and `10` of an interest of `12` stay in the pool. -/
def interestRun : List Label :=
  let call (a : Address) := Label.call (fun _ => none) (Env.signedBy [a] 100)
  [call 10 (.initializeContract 10 6 11 12 none), call 10 (.setCreditline 10 30),
    call 21 (.deposit 21 10000), call 30 (.distributeInterest 30 12)]

theorem deposit_fair_iff_sample : ∃ s s' : State,
    deposit .sample (Env.signedBy [22] 100) 22 1000 s = .ok (999, s') ∧
    999 * (s.pool.totalLiquidity + deadSharesAmount)
      ≤ 1000 * (seedDeadShares s.pool).totalShares := by
  have hrun : (replay (take .sample) sampleDeployed interestRun).toOption.map (fun r =>
      ((deposit .sample (Env.signedBy [22] 100) 22 1000 r.2).toOption.map Prod.fst,
        r.2.pool.totalLiquidity, r.2.pool.totalShares)) = some (some 999, 10010, 11000) := by
    decide +kernel
  obtain ⟨_, s, hreach, hs⟩ :=
    Reachable.of_replay (I := Deployed) (R := Step .sample) hrun rfl fun _ _ _ h => h
  simp only [Prod.mk.injEq] at hs
  obtain ⟨hissued, htotal, hshares⟩ := hs
  obtain ⟨⟨_, s'⟩, hdeposit, rfl⟩ := toOption_map_some.mp hissued
  have hdown : s.pool.IssuesDown 1000 := by
    simp only [Storage.IssuesDown, Storage.effectiveLiquidity, seedDeadShares_eq, htotal, hshares]
    decide
  exact ⟨s, s', hdeposit, (deposit_fair_iff hreach hdeposit).mpr hdown⟩

/-- The same deposit of `10009`, the price itself, is issued `10000` shares, which
are worth more. -/
theorem deposit_over_issues : ¬∀ s provider amount issued s',
    Reachable Deployed (Step .sample) s →
    deposit .sample (Env.signedBy [22] 100) provider amount s = .ok (issued, s') →
    issued * (s.pool.totalLiquidity + deadSharesAmount)
      ≤ amount * (seedDeadShares s.pool).totalShares := by
  intro hall
  have hrun : (replay (take .sample) sampleDeployed interestRun).toOption.map (fun r =>
      ((deposit .sample (Env.signedBy [22] 100) 22 10009 r.2).toOption.map Prod.fst,
        r.2.pool.totalLiquidity, r.2.pool.totalShares)) = some (some 10000, 10010, 11000) := by
    decide +kernel
  obtain ⟨_, s, hreach, hs⟩ :=
    Reachable.of_replay (I := Deployed) (R := Step .sample) hrun rfl fun _ _ _ h => h
  simp only [Prod.mk.injEq] at hs
  obtain ⟨hissued, htotal, hshares⟩ := hs
  obtain ⟨⟨_, s'⟩, hdeposit, rfl⟩ := toOption_map_some.mp hissued
  have hle := hall s 22 10009 _ s' hreach hdeposit
  simp only [seedDeadShares_eq, htotal, hshares] at hle
  exact absurd hle (by decide)

/-- The price is not the clamp, or the shares that are not a multiple of `10000`,
and are paid nothing, make up for it. -/
def Storage.ReturnsDown (p : Storage) (shares : Int) : Prop :=
  let scaled := p.effectiveLiquidity * sharePricePrecision
  p.totalShares ≤ scaled ∨
    shares / sharePricePrecision * (p.totalShares - scaled)
      ≤ shares % sharePricePrecision * p.effectiveLiquidity

/-- A withdrawal returns at most the exact proportional value exactly when
`ReturnsDown` holds of the state before it. -/
theorem withdraw_fair_iff (h : Reachable Deployed (Step d) s)
    (hwithdraw : withdraw d env provider shares s = .ok (returned, s')) :
    returned * s.pool.totalShares ≤ shares * (s.pool.totalLiquidity + deadSharesAmount) ↔
      s.pool.ReturnsDown shares := by
  have hs := sound_of_reachable h
  obtain ⟨hpos, hle, hreturned, -⟩ := withdraw_accounts hs hwithdraw
  have hsupply : 0 < s.pool.totalShares := hs.shares_pos (Int.lt_of_lt_of_le hpos hle)
  rw [hreturned]
  exact FlooredVault.returned_le_exact_iff (by decide) hs.effective_pos hsupply (by omega)

/-- Of a deposit of `100000000` all but one token is lent and lost. -/
def wipeoutRun : List Label :=
  let call (a : Address) := Label.call (fun _ => none) (Env.signedBy [a] 100)
  [call 10 (.initializeContract 10 6 11 12 none), call 10 (.setCreditline 10 30),
    call 21 (.deposit 21 100000000), call 30 (.fundLoan 30 40 99999999),
    call 30 (.absorbLoss 30 99999999)]

def wealthyDeployed : State := ⟨Storage.empty, ⟨fun _ => 100000000, []⟩⟩

theorem withdraw_fair_iff_sample : ∃ s s' : State,
    withdraw .sample (Env.signedBy [21] 100) 21 9999 s = .ok (0, s') ∧
    0 * s.pool.totalShares ≤ 9999 * (s.pool.totalLiquidity + deadSharesAmount) := by
  have hrun : (replay (take .sample) wealthyDeployed wipeoutRun).toOption.map (fun r =>
      ((withdraw .sample (Env.signedBy [21] 100) 21 9999 r.2).toOption.map Prod.fst,
        r.2.pool.totalLiquidity, r.2.pool.totalShares)) = some (some 0, 1, 100001000) := by
    decide +kernel
  obtain ⟨_, s, hreach, hs⟩ :=
    Reachable.of_replay (I := Deployed) (R := Step .sample) hrun rfl fun _ _ _ h => h
  simp only [Prod.mk.injEq] at hs
  obtain ⟨hreturned, htotal, hshares⟩ := hs
  obtain ⟨⟨_, s'⟩, hwithdraw, rfl⟩ := toOption_map_some.mp hreturned
  have hdown : s.pool.ReturnsDown 9999 := by
    simp only [Storage.ReturnsDown, Storage.effectiveLiquidity, htotal, hshares]
    decide
  exact ⟨s, s', hwithdraw, (withdraw_fair_iff hreach hwithdraw).mpr hdown⟩

/-- After the loss `10000` shares, worth a tenth of a token, are paid a whole one. -/
theorem withdraw_overpays : ¬∀ s provider shares returned s',
    Reachable Deployed (Step .sample) s →
    withdraw .sample (Env.signedBy [21] 100) provider shares s = .ok (returned, s') →
    returned * s.pool.totalShares ≤ shares * (s.pool.totalLiquidity + deadSharesAmount) := by
  intro hall
  have hrun : (replay (take .sample) wealthyDeployed wipeoutRun).toOption.map (fun r =>
      ((withdraw .sample (Env.signedBy [21] 100) 21 10000 r.2).toOption.map Prod.fst,
        r.2.pool.totalLiquidity, r.2.pool.totalShares)) = some (some 1, 1, 100001000) := by
    decide +kernel
  obtain ⟨_, s, hreach, hs⟩ :=
    Reachable.of_replay (I := Deployed) (R := Step .sample) hrun rfl fun _ _ _ h => h
  simp only [Prod.mk.injEq] at hs
  obtain ⟨hreturned, htotal, hshares⟩ := hs
  obtain ⟨⟨_, s'⟩, hwithdraw, rfl⟩ := toOption_map_some.mp hreturned
  have hle := hall s 21 10000 _ s' hreach hwithdraw
  rw [htotal, hshares] at hle
  exact absurd hle (by decide)

end StepFi.LiquidityPool

import StepFi.LiquidityPool.Accounts

/-!
# The share price over a run

Without a written-off loss the quoted price never falls, and what all providers
could withdraw at it stays within the liquidity as long as the pool has one
token, virtual ones included, for each share (`Accounts.AtPar`). A loss can
break that: the price counts the virtual tokens, the liquidity does not.
-/

namespace StepFi.LiquidityPool

open Lib

namespace Accounts

variable {a b : Accounts}

/-- The quote of the pool, at par while there are no shares. -/
def quoted (a : Accounts) : Int := if a.shares = 0 then sharePricePrecision else a.quote a.shares

/-- One token for each share, the virtual ones included. -/
def AtPar (a : Accounts) : Prop := a.shares ≤ a.total + deadSharesAmount

/-- What keeps the price up: liquidity leaves with shares only. -/
def NoLoss (a b : Accounts) : Prop := a.total ≤ b.total ∨ b.shares < a.shares

/-- Providers hold at most what the dead shares leave of the supply. -/
theorem Sound.sum_held_le (h : a.Sound) (qs : Finset Address) :
    ∑ p ∈ qs, a.held p ≤ a.seeded - deadSharesAmount := by
  obtain ⟨ps, hS, hz⟩ := h.seeded_eq
  have hsub : ∑ p ∈ qs, a.held p ≤ ∑ p ∈ ps ∪ qs, a.held p :=
    Finset.sum_le_sum_of_subset_of_nonneg Finset.subset_union_right
      fun p _ _ => h.held_nonneg p
  have hps : ps ⊆ ps ∪ qs := Finset.subset_union_left
  have hall := sum_held_mono hz hps
  omega

/-- Shares that are there to be burnt are not the dead ones. -/
theorem Sound.burn_lt (h : a.Sound) {provider : Address} {shares : Int} (hpos : 0 < shares)
    (hle : shares ≤ a.held provider) : a.shares = a.seeded ∧ shares < a.shares := by
  have hS := h.shares_pos (Int.lt_of_lt_of_le hpos hle)
  have hseed : a.seeded = a.shares := if_neg (by omega)
  have hsum := h.sum_held_le {provider}
  simp only [Finset.sum_singleton, deadSharesAmount] at hsum
  exact ⟨hseed.symm, by omega⟩

/-- An empty pool already quotes at least par for its first deposit. -/
theorem Sound.quoted_le_seeded (h : a.Sound) : a.quoted ≤ a.quote a.seeded := by
  unfold quoted
  split
  · rename_i h0
    have hT := h.total_nonneg
    have hseed : a.seeded = deadSharesAmount := if_pos h0
    rw [hseed]
    exact FlooredVault.unit_le_price (by decide) (by decide) (by omega)
  · rename_i hne
    exact Int.le_of_eq (by rw [seeded, if_neg hne])

theorem Sound.quoted_eq (hs : a.Sound) (h : a.shares = a.seeded) : a.quoted = a.quote a.shares := by
  have hpos := hs.seeded_pos
  exact if_neg (by omega)

/-- The shares of a deposit are worth at most the amount, at the price before it. -/
theorem issued_le {amount k : Int} (hk : k = amount * sharePricePrecision / a.quote a.seeded) :
    k * FlooredVault.price sharePricePrecision (a.total + deadSharesAmount) a.seeded
      ≤ amount * sharePricePrecision := by
  have h1 : 1 ≤ FlooredVault.price sharePricePrecision (a.total + deadSharesAmount) a.seeded :=
    FlooredVault.one_le_price
  rw [hk]
  exact Int.ediv_mul_le _ (by simp only [quote]; omega)

/-- The amount of a withdrawal is at most what the shares are worth. -/
theorem returned_le {shares r : Int} (hr : r = shares * a.quote a.shares / sharePricePrecision) :
    r * sharePricePrecision ≤
      shares * FlooredVault.price sharePricePrecision (a.total + deadSharesAmount) a.shares := by
  rw [hr]
  exact Int.ediv_mul_le _ (by decide)

theorem quoted_reprice {total locked : Int} (hs : a.Sound) (h : a.total ≤ total) :
    a.quoted ≤ quoted { a with total := total, locked := locked } := by
  by_cases h0 : a.shares = 0
  · simp [quoted, h0]
  · have hpos : 0 < a.shares := by
      have := hs.seeded_pos
      rwa [seeded, if_neg h0] at this
    simp only [quoted, h0, if_false]
    exact FlooredVault.price_mono (Int.add_le_add_right h _) (by decide) hpos

theorem Moves.quoted_le (hm : a.Moves b) (hs : a.Sound) (hloss : a.NoLoss b) :
    a.quoted ≤ b.quoted := by
  cases hm with
  | keep => exact Int.le_refl _
  | deposit provider amount k hmin hk hissued =>
    have hpos := hs.seeded_pos
    have hafter := FlooredVault.price_le_deposit hpos (by omega) (issued_le hissued)
    have hquoted : a.quote a.seeded ≤ quoted { a with
        total := a.total + amount
        shares := a.seeded + k
        held := Function.update a.held provider (a.held provider + k) } := by
      rw [quoted, if_neg (show a.seeded + k ≠ 0 by omega)]
      refine Int.le_trans hafter (Int.le_of_eq ?_)
      simp only [quote]
      congr 1
      omega
    exact Int.le_trans hs.quoted_le_seeded hquoted
  | withdraw provider shares r hpos hle hr havail =>
    obtain ⟨hseed, hlt⟩ := hs.burn_lt hpos hle
    have hafter := FlooredVault.price_le_withdraw (by omega) hlt (returned_le hr)
    rw [hs.quoted_eq hseed, quoted, if_neg (show a.shares - shares ≠ 0 by omega)]
    refine Int.le_trans hafter (Int.le_of_eq ?_)
    simp only [quote]
    congr 1
    omega
  | lend amount => exact quoted_reprice hs (Int.le_refl _)
  | repay principal gain hq hg => exact quoted_reprice hs (by omega)
  | earn gain hg => exact quoted_reprice hs (by omega)
  | recover amount hpos =>
    have := hs.locked_nonneg
    exact quoted_reprice hs (by omega)
  | absorb shortfall =>
    refine quoted_reprice hs ?_
    rcases hloss with h | h
    · exact h
    · exact absurd h (Int.lt_irrefl _)

theorem Moves.atPar (hm : a.Moves b) (hs : a.Sound) (hpar : a.AtPar) (hloss : a.NoLoss b) :
    b.AtPar := by
  unfold AtPar at hpar ⊢
  cases hm with
  | keep => exact hpar
  | deposit provider amount k hmin hk hissued =>
    have hseeded : a.seeded ≤ a.total + deadSharesAmount := by
      have := hs.total_nonneg
      unfold seeded
      split <;> omega
    have := FlooredVault.par_deposit (by decide) hs.seeded_pos hseeded (by omega)
      (issued_le hissued)
    dsimp only
    omega
  | withdraw provider shares r hpos hle hr havail =>
    obtain ⟨-, hlt⟩ := hs.burn_lt hpos hle
    have := FlooredVault.par_withdraw (by decide) (by omega) hpar (by omega) (returned_le hr)
    dsimp only
    omega
  | lend amount => exact hpar
  | repay principal gain hq hg =>
    dsimp only
    omega
  | earn gain hg =>
    dsimp only
    omega
  | recover amount hpos =>
    have := hs.locked_nonneg
    dsimp only
    omega
  | absorb shortfall =>
    rcases hloss with h | h
    · dsimp only at h ⊢
      omega
    · exact absurd h (Int.lt_irrefl _)

end Accounts

open Accounts

variable {d : Deployment} {active : Address → Option Bool} {env : Env} {call : Call}
variable {p : Storage} {s s' t : State} {l : Label} {tr : List (State × Label)} {price price' : Int}

theorem getSharePrice_eq (hs : p.accounts.Sound) (h : getSharePrice p = .ok price) :
    price = p.accounts.quoted := by
  unfold quoted
  split
  · rename_i h0
    have h0' : p.totalShares = 0 := h0
    simp only [getSharePrice, calculateSharePriceInternal, h0', if_true, Except.ok.injEq] at h
    exact h.symm
  · rename_i hne
    have hpos := hs.seeded_pos
    rw [seeded, if_neg hne] at hpos
    exact sharePrice_quote h hs hpos

/-! ## Runs without a loss -/

def Call.AbsorbsLoss : Call → Prop
  | .absorbLoss .. => True
  | _ => False

def Label.AbsorbsLoss : Label → Prop
  | .call _ _ call => call.AbsorbsLoss
  | .ledger _ => False

instance : DecidablePred Label.AbsorbsLoss := fun l => by
  unfold Label.AbsorbsLoss Call.AbsorbsLoss
  split <;> (try split) <;> infer_instance

theorem exec_noLoss (hs : s.pool.accounts.Sound) (h : exec d active env call s = .ok s')
    (hc : ¬call.AbsorbsLoss) : s.pool.accounts.NoLoss s'.pool.accounts := by
  cases call with
  | deposit provider amount =>
    obtain ⟨⟨k, s₁⟩, h₁, rfl⟩ := map_ok.mp h
    obtain ⟨hmin, -, -, hs'⟩ := deposit_accounts hs h₁
    simp only [minAmount] at hmin
    rw [hs']
    exact .inl (show s.pool.accounts.total ≤ s.pool.accounts.total + amount by omega)
  | withdraw provider shares =>
    obtain ⟨⟨r, s₁⟩, h₁, rfl⟩ := map_ok.mp h
    obtain ⟨hpos, -, -, -, hs'⟩ := withdraw_accounts hs h₁
    rw [hs']
    exact .inr (show s.pool.accounts.shares - shares < s.pool.accounts.shares by omega)
  | fundLoan creditline merchant amount =>
    obtain ⟨-, -, -, -, -, _, _, _, rfl⟩ := fundLoan_spec h
    exact .inl (Int.le_refl _)
  | receiveRepayment creditline principal interest =>
    obtain ⟨-, -, -, -, -, -, rfl⟩ := receiveRepayment_spec h
    refine .inl (Int.le_add_of_nonneg_right ?_)
    split
    · rename_i hpos
      exact (shares_nonneg hpos).1
    · exact Int.le_refl 0
  | receiveGuarantee creditline amount =>
    obtain ⟨-, -, -, hpos, -, -, -, -, -, -, rfl⟩ := receiveGuarantee_ok.mp h
    have hlocked : 0 ≤ s.pool.lockedLiquidity := hs.locked_nonneg
    exact .inl (Int.le_add_of_nonneg_right (by omega))
  | absorbLoss => exact absurd trivial hc
  | distributeInterest creditline interest =>
    obtain ⟨-, -, hpos, -, -, rfl⟩ := distributeInterest_spec h
    exact .inl (Int.le_add_of_nonneg_right (shares_nonneg hpos).1)
  | accumulateInterest creditline interest =>
    obtain ⟨-, -, hpos, -, -, rfl⟩ := distributeInterest_spec h
    exact .inl (Int.le_add_of_nonneg_right (shares_nonneg hpos).1)
  | _ =>
    rw [(exec_setter h trivial).2.accounts]
    exact .inl (Int.le_refl _)

/-- A step that realises no loss is a move of the accounts that loses nothing. -/
theorem Step.noLoss (hs : s.pool.accounts.Sound) (h : Step d s l s') (hl : ¬l.AbsorbsLoss) :
    s.pool.accounts.Moves s'.pool.accounts ∧ s.pool.accounts.NoLoss s'.pool.accounts := by
  cases l with
  | call active env call => exact ⟨exec_moves hs h, exec_noLoss hs h hl⟩
  | ledger token =>
    cases h
    exact ⟨.keep, .inl (Int.le_refl _)⟩

theorem Run.quoted_le (hs : s.pool.accounts.Sound) (h : Run (Step d) s tr t)
    (hloss : ∀ x ∈ tr, ¬x.2.AbsorbsLoss) :
    t.pool.accounts.Sound ∧ s.pool.accounts.quoted ≤ t.pool.accounts.quoted := by
  induction h with
  | nil => exact ⟨hs, Int.le_refl _⟩
  | @snoc tr t u l hr hstep ih =>
    obtain ⟨hpre, hlast⟩ := List.forall_mem_append.mp hloss
    obtain ⟨ht, hle⟩ := ih hpre
    obtain ⟨hmoves, hno⟩ := Step.noLoss ht hstep (hlast _ (List.mem_singleton_self _))
    exact ⟨hmoves.sound ht, Int.le_trans hle (hmoves.quoted_le ht hno)⟩

/-- From any state of the pool on, the quoted price never falls before a loss is
written off. -/
theorem sharePrice_le_of_no_loss (hs : Reachable Deployed (Step d) s) (h : Run (Step d) s tr t)
    (hloss : ∀ x ∈ tr, ¬x.2.AbsorbsLoss) (hprice : getSharePrice s.pool = .ok price)
    (hprice' : getSharePrice t.pool = .ok price') : price ≤ price' := by
  have hsound := sound_of_reachable hs
  obtain ⟨ht, hle⟩ := Run.quoted_le hsound h hloss
  rwa [getSharePrice_eq hsound hprice, getSharePrice_eq ht hprice']

/-- A pool with credit line `30`, whose first provider comes after the first
interest. -/
def sampleRun : List Label :=
  let call (a : Address) := Label.call (fun _ => none) (Env.signedBy [a] 100)
  [call 10 (.initializeContract 10 6 11 12 none), call 10 (.setCreditline 10 30),
    call 30 (.distributeInterest 30 1000), call 21 (.deposit 21 4000), call 21 (.withdraw 21 700),
    call 30 (.receiveRepayment 30 0 400)]

def sampleDeployed : State := ⟨Storage.empty, ⟨fun _ => 100000, []⟩⟩

theorem sharePrice_le_of_no_loss_sample : ∃ (t : State) (price price' : Int),
    getSharePrice sampleDeployed.pool = .ok price ∧ getSharePrice t.pool = .ok price' ∧
      price' = 19882 ∧ price ≤ price' := by
  have hrun : (replay (take .sample) sampleDeployed sampleRun).toOption.map
      (fun r => ((getSharePrice r.2.pool).toOption.map id, r.1.all fun x => ¬x.2.AbsorbsLoss))
        = some (some 19882, true) := by
    decide +kernel
  obtain ⟨tr, t, hr, ht⟩ := replay_observed hrun
  obtain ⟨hprice, hloss⟩ := Prod.mk.injEq .. ▸ ht
  obtain ⟨_, hok, rfl⟩ := toOption_map_some.mp hprice
  have hstart : getSharePrice sampleDeployed.pool = .ok sharePricePrecision := by rfl
  refine ⟨t, _, _, hstart, hok, rfl, ?_⟩
  exact sharePrice_le_of_no_loss (Reachable.init (s := sampleDeployed) rfl)
    (Run.of_replay (fun _ _ _ _ h => h) hr) (by simpa using hloss) hstart hok

/-! ## What the providers' shares are worth -/

/-- What all of `providers` could withdraw at the current price. -/
def claims (p : Storage) (providers : Finset Address) : Int :=
  ∑ provider ∈ providers, calculateWithdrawal p (getLpShares p provider)

/-- The price `calculateWithdrawal` works with. -/
def withdrawalPrice (p : Storage) : Int :=
  (calculateSharePriceInternal p).toOption.getD sharePricePrecision

theorem calculateWithdrawal_le {shares : Int} (h0 : 0 ≤ shares) (hq : 0 ≤ withdrawalPrice p) :
    calculateWithdrawal p shares ≤ shares * withdrawalPrice p / sharePricePrecision := by
  have hvalue : 0 ≤ shares * withdrawalPrice p := Int.mul_nonneg h0 hq
  have hfloor : 0 ≤ shares * withdrawalPrice p / sharePricePrecision :=
    Int.ediv_nonneg hvalue (by decide)
  unfold calculateWithdrawal
  split
  · exact hfloor
  · split
    · exact hfloor
    · change (divI128 ((mulI128 shares (withdrawalPrice p)).toOption.getD 0)
        sharePricePrecision).toOption.getD 0 ≤ _
      have hdiv : ∀ x, 0 ≤ x → x ≤ shares * withdrawalPrice p →
          (divI128 x sharePricePrecision).toOption.getD 0
            ≤ shares * withdrawalPrice p / sharePricePrecision := by
        intro x hx hle
        cases hd : divI128 x sharePricePrecision with
        | error e => exact hfloor
        | ok y =>
          obtain ⟨-, -, rfl⟩ := divI128_ok.mp hd
          rw [Int.tdiv_eq_ediv_of_nonneg hx]
          exact Int.ediv_le_ediv (by decide) hle
      cases hm : mulI128 shares (withdrawalPrice p) with
      | error e => exact hdiv 0 (Int.le_refl 0) hvalue
      | ok x =>
        obtain ⟨-, rfl⟩ := mulI128_ok.mp hm
        exact hdiv _ hvalue (Int.le_refl _)

/-- The claims are worth at most the shares that are not dead. -/
theorem claims_mul_le (hs : p.accounts.Sound) (hq : 0 ≤ withdrawalPrice p)
    (providers : Finset Address) : claims p providers * sharePricePrecision
      ≤ (p.accounts.seeded - deadSharesAmount) * withdrawalPrice p := by
  have hfloors : claims p providers ≤ ∑ provider ∈ providers,
      p.lpShares provider * withdrawalPrice p / sharePricePrecision :=
    Finset.sum_le_sum fun provider _ => calculateWithdrawal_le (hs.held_nonneg provider) hq
  calc claims p providers * sharePricePrecision
      ≤ (∑ provider ∈ providers, p.lpShares provider * withdrawalPrice p / sharePricePrecision)
          * sharePricePrecision := Int.mul_le_mul_of_nonneg_right hfloors (by decide)
    _ ≤ (∑ provider ∈ providers, p.lpShares provider) * withdrawalPrice p :=
        FlooredVault.claims_le (by decide)
    _ ≤ (p.accounts.seeded - deadSharesAmount) * withdrawalPrice p :=
        Int.mul_le_mul_of_nonneg_right (hs.sum_held_le providers) hq

theorem claims_unseeded (h0 : p.totalShares = 0) (providers : Finset Address) :
    claims p providers = 0 := by
  refine Finset.sum_eq_zero fun provider _ => ?_
  simp [calculateWithdrawal, h0]

theorem Accounts.one_le_quoted {a : Accounts} : 1 ≤ a.quoted := by
  unfold quoted
  split
  · decide
  · exact FlooredVault.one_le_price

theorem one_le_withdrawalPrice (hs : p.accounts.Sound) : 1 ≤ withdrawalPrice p := by
  unfold withdrawalPrice
  cases h : calculateSharePriceInternal p with
  | error e => exact show (1 : Int) ≤ 10000 by decide
  | ok q => exact getSharePrice_eq hs h ▸ one_le_quoted

/-- Where a share is worth one unit of the price at least, the claims and what
the dead shares are worth stay within the liquidity and the virtual tokens. -/
theorem claims_add_price_le (hs : p.accounts.Sound)
    (hworth : p.totalShares ≤ (p.totalLiquidity + deadSharesAmount) * sharePricePrecision)
    (hprice : getSharePrice p = .ok price) (providers : Finset Address) :
    10 * claims p providers + price ≤ 10 * (p.totalLiquidity + deadSharesAmount) := by
  have hquoted := getSharePrice_eq hs hprice
  by_cases h0 : p.totalShares = 0
  · have hT : 0 ≤ p.totalLiquidity := hs.total_nonneg
    have hpar : p.accounts.quoted = sharePricePrecision := if_pos h0
    rw [claims_unseeded h0]
    simp only [sharePricePrecision, deadSharesAmount] at hpar ⊢
    omega
  · have hseed : p.accounts.seeded = p.totalShares := if_neg h0
    have hpos : 0 < p.totalShares := hseed ▸ hs.seeded_pos
    have hq : withdrawalPrice p = price := by
      have h : calculateSharePriceInternal p = .ok price := hprice
      simp [withdrawalPrice, h, Except.toOption]
    have hone := one_le_withdrawalPrice hs
    have hclaims := claims_mul_le hs (by omega) providers
    have hexact : price * p.totalShares
        ≤ (p.totalLiquidity + deadSharesAmount) * sharePricePrecision := by
      rw [hquoted, show p.accounts.quoted = p.accounts.quote p.totalShares from if_neg h0]
      exact FlooredVault.price_mul_le_of_worth hpos hworth
    rw [hq, hseed] at hclaims
    simp only [sharePricePrecision, deadSharesAmount] at hclaims hexact ⊢
    nlinarith

/-- At par the virtual tokens are all the dead shares are worth, so the claims
are backed by the real ones. -/
theorem claims_le_of_atPar (hs : p.accounts.Sound) (hpar : p.accounts.AtPar)
    (providers : Finset Address) : claims p providers ≤ p.totalLiquidity := by
  have hT : 0 ≤ p.totalLiquidity := hs.total_nonneg
  have hS : p.totalShares ≤ p.totalLiquidity + deadSharesAmount := hpar
  by_cases h0 : p.totalShares = 0
  · rw [claims_unseeded h0]
    exact hT
  · cases hprice : getSharePrice p with
    | ok price =>
      have hworth : p.totalShares
          ≤ (p.totalLiquidity + deadSharesAmount) * sharePricePrecision := by
        simp only [deadSharesAmount, sharePricePrecision] at hS ⊢
        omega
      have hbound := claims_add_price_le hs hworth hprice providers
      have hseed : p.accounts.seeded = p.totalShares := if_neg h0
      have hunit : sharePricePrecision ≤ price := by
        rw [getSharePrice_eq hs hprice,
          show p.accounts.quoted = p.accounts.quote p.totalShares from if_neg h0]
        exact FlooredVault.unit_le_price (by decide) (hseed ▸ hs.seeded_pos) hS
      simp only [sharePricePrecision, deadSharesAmount] at hunit hbound
      omega
    | error e =>
      have hq : withdrawalPrice p = sharePricePrecision := by
        have h : calculateSharePriceInternal p = .error e := hprice
        simp [withdrawalPrice, h, Except.toOption]
      have hseed : p.accounts.seeded = p.totalShares := if_neg h0
      have hclaims := claims_mul_le hs (by rw [hq]; decide) providers
      rw [hq, hseed] at hclaims
      have := le_of_mul_le_mul_right hclaims (by decide)
      omega

/-- A loss that leaves one token for each share. -/
def LossCovered (s : State) : Label → Prop
  | .call _ _ (.absorbLoss _ shortfall) =>
    s.pool.totalShares
      ≤ s.pool.totalLiquidity - min shortfall s.pool.totalLiquidity + deadSharesAmount
  | _ => True

instance (s : State) : DecidablePred (LossCovered s) := fun l => by
  unfold LossCovered
  split <;> infer_instance

theorem Step.atPar (hs : s.pool.accounts.Sound) (hpar : s.pool.accounts.AtPar)
    (hc : LossCovered s l) (h : Step d s l s') : s'.pool.accounts.AtPar := by
  by_cases hl : l.AbsorbsLoss
  · cases l with
    | call active env call =>
      cases call with
      | absorbLoss creditline shortfall =>
        obtain ⟨-, -, -, -, -, -, -, rfl⟩ := absorbLoss_ok.mp h
        exact hc
      | _ => exact hl.elim
    | ledger token => exact hl.elim
  · obtain ⟨hmoves, hno⟩ := Step.noLoss hs h hl
    exact hmoves.atPar hs hpar hno

/-- What the providers could withdraw is in the pool in every state with one
token for each share, and so in every state of a run whose losses leave one; a
state with fewer is short of the virtual tokens at most, less what the dead
shares are still worth. -/
theorem claims_backed {s₀ : State} (h : Run (Step d) s₀ tr s) (h0 : Deployed s₀)
    (providers : Finset Address) :
    (s.pool.totalShares ≤ s.pool.totalLiquidity + deadSharesAmount →
      claims s.pool providers ≤ s.pool.totalLiquidity) ∧
    ((∀ x ∈ tr, LossCovered x.1 x.2) → AllStates (fun t => claims t.pool providers
      ≤ t.pool.totalLiquidity) tr s) ∧
    ∀ price, getSharePrice s.pool = .ok price →
      s.pool.totalShares ≤ (s.pool.totalLiquidity + deadSharesAmount) * sharePricePrecision →
      10 * claims s.pool providers + price ≤ 10 * (s.pool.totalLiquidity + deadSharesAmount) := by
  have hs := sound_of_reachable (h.reachable h0)
  refine ⟨fun hpar => claims_le_of_atPar hs hpar providers, fun hloss => ?_,
    fun price hprice hworth => claims_add_price_le hs hworth hprice providers⟩
  have hstates : AllStates (fun t => t.pool.accounts.Sound ∧ t.pool.accounts.AtPar) tr s := by
    refine h.states_of_steps h0 ⟨h0.sound, ?_⟩ (fun s l s' _ ht hc hstep => ?_) hloss
    · rw [h0]
      exact show (0 : Int) ≤ 0 + 1000 by decide
    · exact ⟨Step.sound ht.1 hstep, Step.atPar ht.1 ht.2 hc hstep⟩
  exact hstates.imp fun t ht => claims_le_of_atPar ht.1 ht.2 providers

def lossRun : List Label :=
  let call (a : Address) := Label.call (fun _ => none) (Env.signedBy [a] 100)
  [call 10 (.initializeContract 10 6 11 12 none), call 10 (.setCreditline 10 30),
    call 21 (.deposit 21 10000), call 30 (.fundLoan 30 40 10000)]

theorem claims_backed_sample : ∃ s : State, s.pool.lockedLiquidity = 10000 ∧
    claims s.pool {21} ≤ s.pool.totalLiquidity := by
  have hrun : (replay (take .sample) sampleDeployed lossRun).toOption.map
      (fun r => (r.2.pool.lockedLiquidity, r.1.all fun x => LossCovered x.1 x.2))
        = some (10000, true) := by
    decide +kernel
  obtain ⟨tr, s, hr, hs⟩ := replay_observed hrun
  obtain ⟨hlocked, hloss⟩ := Prod.mk.injEq .. ▸ hs
  have hbacked := claims_backed (Run.of_replay (fun _ _ _ _ h => h) hr)
    (show Deployed sampleDeployed from rfl) {21}
  exact ⟨s, hlocked, (hbacked.2.1 (by simpa using hloss)).2⟩

/-- The whole liquidity of the pool is lent and lost: its provider's shares are
still worth part of the virtual tokens, and no token is left. -/
theorem loss_leaves_claims : ¬∀ s, Reachable Deployed (Step .sample) s →
    ∀ providers, claims s.pool providers ≤ s.pool.totalLiquidity := by
  intro hall
  have hrun : (replay (take .sample) sampleDeployed (lossRun ++
      [.call (fun _ => none) (Env.signedBy [30] 100) (.absorbLoss 30 10000)])).toOption.map
      (fun r => (r.2.pool.totalLiquidity, claims r.2.pool {21})) = some (0, 909) := by
    decide +kernel
  obtain ⟨_, s, hreach, hs⟩ :=
    Reachable.of_replay (I := Deployed) (R := Step .sample) hrun rfl fun _ _ _ h => h
  obtain ⟨htotal, hclaims⟩ := Prod.mk.injEq .. ▸ hs
  have hle := hall s hreach {21}
  have htotal' : s.pool.totalLiquidity = 0 := htotal
  have hclaims' : claims s.pool {21} = 909 := hclaims
  omega

end StepFi.LiquidityPool

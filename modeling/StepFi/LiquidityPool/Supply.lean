import StepFi.LiquidityPool.Ledger
import StepFi.LiquidityPool.Price

/-!
# The share supply over a run

The dead shares enter the supply with the first deposit of a pool's life and
never again, and the liquidity counters stay in a range in which every entry
point computes the same available liquidity.
-/

namespace StepFi.LiquidityPool

open Lib Accounts

variable {d : Deployment} {active : Address → Option Bool} {env : Env} {call : Call}
variable {s s' : State} {l : Label} {tr : List (State × Label)}

def Label.Deposits : Label → Prop
  | .call _ _ (.deposit ..) => True
  | _ => False

instance : DecidablePred Label.Deposits := fun l => by
  unfold Label.Deposits
  split <;> infer_instance

/-- The step is a deposit into a pool without shares: the one that seeds. -/
def Seeds (s : State) (l : Label) : Prop := l.Deposits ∧ s.pool.totalShares = 0

instance (s : State) : DecidablePred (Seeds s) := fun _ => inferInstanceAs (Decidable (_ ∧ _))

/-- How often the dead shares were seeded. -/
def seedings (tr : List (State × Label)) : Nat := tr.countP fun x => Seeds x.1 x.2

theorem seedings_snoc (tr : List (State × Label)) (s : State) (l : Label) :
    seedings (tr ++ [(s, l)]) = seedings tr + if Seeds s l then 1 else 0 := by
  simp [seedings, List.countP_append, List.countP_singleton]

/-- Before the first deposit there is no share; from then on the dead shares are
there, seeded once. -/
inductive SeededOnce (tr : List (State × Label)) (shares : Int) : Prop
  | unseeded : (∀ x ∈ tr, ¬x.2.Deposits) → shares = 0 → seedings tr = 0 → SeededOnce tr shares
  | seeded : (∃ x ∈ tr, x.2.Deposits) → shares ≠ 0 → seedings tr = 1 → SeededOnce tr shares

theorem Step.deposits (hs : s.pool.accounts.Sound) (h : Step d s l s') (hl : l.Deposits) :
    s'.pool.totalShares ≠ 0 := by
  cases l with
  | call active env call =>
    cases call with
    | deposit provider amount =>
      obtain ⟨⟨k, s₁⟩, h₁, rfl⟩ := map_ok.mp h
      obtain ⟨-, hk, -, hs'⟩ := deposit_accounts hs h₁
      have hseeded := hs.seeded_pos
      have hshares : s₁.pool.totalShares = s.pool.accounts.seeded + k :=
        congrArg Accounts.shares hs'
      show s₁.pool.totalShares ≠ 0
      omega
    | _ => exact hl.elim
  | ledger token => exact hl.elim

/-- Without a deposit the supply neither becomes nor stops being empty. -/
theorem Step.shares_zero_iff (hs : s.pool.accounts.Sound) (h : Step d s l s')
    (hl : ¬l.Deposits) : s'.pool.totalShares = 0 ↔ s.pool.totalShares = 0 := by
  have keep : s'.pool.totalShares = s.pool.totalShares →
      (s'.pool.totalShares = 0 ↔ s.pool.totalShares = 0) := fun he => by rw [he]
  cases l with
  | call active env call =>
    change exec d active env call s = .ok s' at h
    cases call with
    | deposit => exact absurd trivial hl
    | withdraw provider shares =>
      obtain ⟨⟨r, s₁⟩, h₁, rfl⟩ := map_ok.mp h
      obtain ⟨hpos, hle, -, -, hs'⟩ := withdraw_accounts hs h₁
      have hshares : s₁.pool.totalShares = s.pool.totalShares - shares :=
        congrArg Accounts.shares hs'
      have hdead : shares < s.pool.totalShares := (hs.burn_lt hpos hle).2
      show s₁.pool.totalShares = 0 ↔ s.pool.totalShares = 0
      omega
    | fundLoan =>
      obtain ⟨-, -, -, -, -, _, _, _, rfl⟩ := fundLoan_spec h
      exact keep rfl
    | receiveRepayment =>
      obtain ⟨-, -, -, -, -, -, rfl⟩ := receiveRepayment_spec h
      exact keep rfl
    | receiveGuarantee =>
      obtain ⟨-, -, -, -, -, -, -, -, -, -, rfl⟩ := receiveGuarantee_ok.mp h
      exact keep rfl
    | absorbLoss =>
      obtain ⟨-, -, -, -, -, -, -, rfl⟩ := absorbLoss_ok.mp h
      exact keep rfl
    | distributeInterest =>
      obtain ⟨-, -, -, -, -, rfl⟩ := distributeInterest_spec h
      exact keep rfl
    | accumulateInterest =>
      obtain ⟨-, -, -, -, -, rfl⟩ := distributeInterest_spec h
      exact keep rfl
    | _ => exact keep (congrArg Accounts.shares (exec_setter h trivial).2.accounts)
  | ledger token =>
    cases h
    exact keep rfl

theorem SeededOnce.step (hseed : SeededOnce tr s.pool.totalShares) (hs : s.pool.accounts.Sound)
    (h : Step d s l s') : SeededOnce (tr ++ [(s, l)]) s'.pool.totalShares := by
  by_cases hl : l.Deposits
  · refine .seeded ⟨(s, l), by simp, hl⟩ (Step.deposits hs h hl) ?_
    rw [seedings_snoc]
    cases hseed with
    | unseeded _ h0 hcount => simp [Seeds, hl, h0, hcount]
    | seeded _ hne hcount => simp [Seeds, hne, hcount]
  · have hzero := Step.shares_zero_iff hs h hl
    have hsame : seedings (tr ++ [(s, l)]) = seedings tr := by
      rw [seedings_snoc]
      simp [Seeds, hl]
    cases hseed with
    | unseeded hno h0 hcount =>
      refine .unseeded ?_ (hzero.mpr h0) (hsame.trans hcount)
      exact List.forall_mem_append.mpr ⟨hno, List.forall_mem_singleton.mpr hl⟩
    | seeded hsome hne hcount =>
      obtain ⟨x, hx, hd⟩ := hsome
      exact .seeded ⟨x, List.mem_append_left _ hx, hd⟩ (fun h0 => hne (hzero.mp h0))
        (hsame.trans hcount)

theorem Run.seededOnce {s₀ : State} (h : Run (Step d) s₀ tr s) (h0 : Deployed s₀) :
    s.pool.accounts.Sound ∧ SeededOnce tr s.pool.totalShares := by
  refine h.history (P := fun tr s => s.pool.accounts.Sound ∧ SeededOnce tr s.pool.totalShares)
    ⟨h0.sound, .unseeded (by simp) (by rw [h0]; rfl) rfl⟩ fun tr t l u ht hstep => ?_
  exact ⟨Step.sound ht.1 hstep, ht.2.step ht.1 hstep⟩

theorem Step.fits (hs : s.pool.accounts.Sound) (hf : I128.Fits s.pool.totalLiquidity)
    (h : Step d s l s') : I128.Fits s'.pool.totalLiquidity := by
  cases l with
  | call active env call => exact exec_fits hs hf h
  | ledger token =>
    cases h
    exact hf

theorem fits_of_reachable (h : Reachable Deployed (Step d) s) :
    I128.Fits s.pool.totalLiquidity := by
  refine h.invariant (fun s h0 => ?_) fun s l s' hr hf hstep =>
    Step.fits (sound_of_reachable hr) hf hstep
  rw [h0]
  decide

/-- What is not locked, as `withdraw` and `fund_loan` compute it and as the
statistics report it. -/
theorem available_eq (h : Reachable Deployed (Step d) s) :
    let available := s.pool.totalLiquidity - s.pool.lockedLiquidity
    0 ≤ available ∧ subI128 s.pool.totalLiquidity s.pool.lockedLiquidity = .ok available ∧
      ∀ stats, getPoolStats s.pool = .ok stats → stats.availableLiquidity = available := by
  have hs := sound_of_reachable h
  have hfits := fits_of_reachable h
  have hlocked : 0 ≤ s.pool.lockedLiquidity := hs.locked_nonneg
  have hle : s.pool.lockedLiquidity ≤ s.pool.totalLiquidity := hs.locked_le
  have hdiff : I128.Fits (s.pool.totalLiquidity - s.pool.lockedLiquidity) :=
    I128.fits_of_le hfits (by omega) (by omega)
  refine ⟨by omega, subI128_ok.mpr ⟨hdiff, rfl⟩, fun stats hstats => ?_⟩
  simp only [getPoolStats, bind_ok, pure_ok] at hstats
  obtain ⟨_, -, rfl⟩ := hstats
  unfold I128.Fits at hdiff
  simp only [saturatingSub]
  omega

/-- The share supply and the lock at every moment of a pool's life: no shares
before the first deposit, the dead shares and what providers hold from then on,
seeded once, and a lock within the liquidity, so that every entry point finds
the same liquidity available. -/
theorem supply_and_lock {s₀ : State} (h : Run (Step d) s₀ tr s) (h0 : Deployed s₀) :
    ((∀ x ∈ tr, ¬x.2.Deposits) → s.pool.totalShares = 0 ∧
      (∀ provider, getLpShares s.pool provider = 0) ∧ seedings tr = 0) ∧
    ((∃ x ∈ tr, x.2.Deposits) → seedings tr = 1 ∧ ∃ providers : Finset Address,
      s.pool.totalShares = 1000 + ∑ provider ∈ providers, getLpShares s.pool provider ∧
      ∀ provider, provider ∉ providers → getLpShares s.pool provider = 0) ∧
    0 ≤ s.pool.lockedLiquidity ∧ s.pool.lockedLiquidity ≤ s.pool.totalLiquidity ∧
    0 ≤ s.pool.totalLiquidity - s.pool.lockedLiquidity ∧
    subI128 s.pool.totalLiquidity s.pool.lockedLiquidity
      = .ok (s.pool.totalLiquidity - s.pool.lockedLiquidity) ∧
    ∀ stats, getPoolStats s.pool = .ok stats →
      stats.availableLiquidity = s.pool.totalLiquidity - s.pool.lockedLiquidity := by
  obtain ⟨hs, hseed⟩ := Run.seededOnce h h0
  refine ⟨fun hno => ?_, fun hsome => ?_, hs.locked_nonneg, hs.locked_le,
    available_eq (h.reachable h0)⟩
  · cases hseed with
    | unseeded _ hzero hcount =>
      refine ⟨hzero, fun provider => ?_, hcount⟩
      have hsum := hs.sum_held_le {provider}
      have hnonneg := hs.held_nonneg provider
      have hdead : s.pool.accounts.seeded = deadSharesAmount := if_pos hzero
      simp only [Finset.sum_singleton, hdead, Int.sub_self] at hsum
      exact Int.le_antisymm hsum hnonneg
    | seeded hsome =>
      obtain ⟨x, hx, hd⟩ := hsome
      exact absurd hd (hno x hx)
  · cases hseed with
    | unseeded hno =>
      obtain ⟨x, hx, hd⟩ := hsome
      exact absurd hd (hno x hx)
    | seeded _ hne hcount =>
      obtain ⟨providers, hS, hz⟩ := hs.seeded_eq
      have hseed : s.pool.accounts.seeded = s.pool.totalShares := if_neg hne
      exact ⟨hcount, providers, hseed.symm.trans hS, hz⟩

/-- The pool of `sampleRun`, whose provider then takes everything out. -/
theorem supply_and_lock_sample : ∃ s : State, s.pool.totalShares = 1000 ∧
    s.pool.lockedLiquidity ≤ s.pool.totalLiquidity := by
  have hrun : (replay (take .sample) sampleDeployed (sampleRun ++
      [.call (fun _ => none) (Env.signedBy [21] 100) (.withdraw 21 1462)])).toOption.map
      (fun r => r.2.pool.totalShares) = some 1000 := by
    decide +kernel
  obtain ⟨tr, s, hr, hs⟩ := replay_observed hrun
  have hrun' := Run.of_replay (R := Step .sample) (fun _ _ _ _ h => h) hr
  exact ⟨s, hs, (supply_and_lock hrun' (show Deployed sampleDeployed from rfl)).2.2.2.1⟩

end StepFi.LiquidityPool

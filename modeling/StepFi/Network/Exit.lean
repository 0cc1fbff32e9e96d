import StepFi.LiquidityPool.Exit
import StepFi.Network.Refinement

/-!
# Every provider can leave

No provider has to be first. At one token a share, with the shares that stay
covering what is lent, the providers can take their shares out in any order and
in any parts, and each is paid at least what the pool quoted before the first of
them left. With nothing lent, they can all go.
-/

namespace StepFi.Network

open Lib LiquidityPool

/-- A withdrawal someone wants to make. -/
structure Exit where
  env : Env
  provider : Address
  shares : Int

namespace Exit

def label (e : Exit) : Label := ⟨e.env, .pool (.withdraw e.provider e.shares)⟩

/-- From outside, signed by the provider, and of some shares. -/
structure Proper (n : Site) (e : Exit) : Prop where
  outside : Outside n e.env
  signed : e.env.auths e.provider = true
  positive : 0 < e.shares

end Exit

variable {n : Site} {s : State} {e : Exit} {exits : List Exit} {q rest : Int}

def burnt (exits : List Exit) : Int := (exits.map Exit.shares).sum

def burntBy (provider : Address) (exits : List Exit) : Int :=
  burnt (exits.filter (·.provider = provider))

/-- The pool pays `e` at least what `worth` says. -/
structure Honours (n : Site) (worth : Int → Int) (e : Exit) (x : Transfer) : Prop where
  source : x.source = n.core.pool
  target : x.target = e.provider
  amount : worth e.shares ≤ x.amount

@[simp] theorem burnt_cons (e : Exit) (exits : List Exit) :
    burnt (e :: exits) = e.shares + burnt exits := by
  simp [burnt]

theorem burntBy_cons (provider : Address) (e : Exit) (exits : List Exit) :
    burntBy provider (e :: exits)
      = (if e.provider = provider then e.shares else 0) + burntBy provider exits := by
  unfold burntBy
  by_cases h : e.provider = provider <;> simp [h]

theorem burnt_nonneg (h : ∀ e ∈ exits, e.Proper n) : 0 ≤ burnt exits := by
  induction exits with
  | nil => exact Int.le_refl 0
  | cons e rest ih =>
    obtain ⟨he, hrest⟩ := List.forall_mem_cons.mp h
    have hpos := he.positive
    have hle := ih hrest
    rw [burnt_cons]
    omega

theorem burntBy_nonneg (provider : Address) (h : ∀ e ∈ exits, e.Proper n) :
    0 ≤ burntBy provider exits :=
  burnt_nonneg fun e he => h e (List.mem_of_mem_filter he)

theorem exit_step (h : Ready n.core q (e.shares + rest) ⟨s.pool, s.token⟩) (he : e.Proper n)
    (hrest : 0 ≤ rest) (hle : e.shares ≤ s.pool.lpShares e.provider) :
    ∃ t r, Step n s e.label t ∧ Ready n.core q rest ⟨t.pool, t.token⟩ ∧
      t.token.log = s.token.log ++ [⟨n.core.pool, e.provider, r⟩] ∧
      e.shares * q / sharePricePrecision ≤ r ∧
      t.pool.lpShares = Function.update s.pool.lpShares e.provider
        (s.pool.lpShares e.provider - e.shares) := by
  have hpays := h.pays he.positive hrest hle he.signed
  have hready := h.withdrawn he.positive hrest hle
  have hquoted : q ≤ s.pool.accounts.quote s.pool.totalShares := h.quoted
  have hleast : e.shares * q / sharePricePrecision
      ≤ e.shares * s.pool.accounts.quote s.pool.totalShares / sharePricePrecision :=
    Int.ediv_le_ediv (by decide)
      (Int.mul_le_mul_of_nonneg_left hquoted (Int.le_of_lt he.positive))
  refine ⟨{ s with
    pool := (withdrawn n.core e.provider e.shares _ ⟨s.pool, s.token⟩).pool
    token := (withdrawn n.core e.provider e.shares _ ⟨s.pool, s.token⟩).token }, _,
    ⟨he.outside, trivial, ?_⟩, hready, rfl, hleast, rfl⟩
  simp only [take, Exit.label, poolCall, bind_ok, pure_ok, LiquidityPool.exec, map_ok]
  exact ⟨_, ⟨_, hpays, rfl⟩, rfl⟩

/-- The exits go through one after another. -/
theorem exits_run {worth : Int → Int} (h : Ready n.core q (burnt exits) ⟨s.pool, s.token⟩)
    (hworth : ∀ shares, 0 < shares → worth shares ≤ shares * q / sharePricePrecision)
    (hproper : ∀ e ∈ exits, e.Proper n)
    (hshares : ∀ provider, burntBy provider exits ≤ s.pool.lpShares provider) :
    ∃ tr t paid, Run (Step n) s tr t ∧ tr.map Prod.snd = exits.map Exit.label ∧
      t.token.log = s.token.log ++ paid ∧
      List.Forall₂ (Honours n worth) exits paid ∧
      ∀ provider, t.pool.lpShares provider
        = s.pool.lpShares provider - burntBy provider exits := by
  induction exits generalizing s with
  | nil =>
    refine ⟨[], s, [], .nil, rfl, (List.append_nil _).symm, .nil, fun provider => ?_⟩
    exact (Int.sub_zero _).symm
  | cons e rest ih =>
    obtain ⟨he, hrest⟩ := List.forall_mem_cons.mp hproper
    have hfirst : e.shares ≤ s.pool.lpShares e.provider := by
      have hall := hshares e.provider
      have hothers := burntBy_nonneg e.provider hrest
      rw [burntBy_cons, if_pos rfl] at hall
      omega
    obtain ⟨t, r, hstep, hready, hlog, hleast, hleft⟩ :=
      exit_step (burnt_cons e rest ▸ h) he (burnt_nonneg hrest) hfirst
    have hafter : ∀ provider, t.pool.lpShares provider
        = s.pool.lpShares provider - if e.provider = provider then e.shares else 0 := by
      intro provider
      rw [hleft]
      by_cases hp : e.provider = provider
      · rw [if_pos hp, ← hp, Function.update_self]
      · rw [if_neg hp, Function.update_of_ne (Ne.symm hp), Int.sub_zero]
    have henough : ∀ provider, burntBy provider rest ≤ t.pool.lpShares provider := by
      intro provider
      have hall := hshares provider
      rw [burntBy_cons] at hall
      rw [hafter]
      omega
    obtain ⟨tr, u, paid, hrun, hlabels, hpaid, hhonours, hend⟩ := ih hready hrest henough
    refine ⟨_, u, ⟨n.core.pool, e.provider, r⟩ :: paid, hrun.cons hstep, ?_, ?_, ?_, ?_⟩
    · rw [List.map_cons, List.map_cons, hlabels]
    · rw [hpaid, hlog, List.append_assoc, List.singleton_append]
    · exact .cons ⟨rfl, rfl, Int.le_trans (hworth _ he.positive) hleast⟩ hhonours
    · intro provider
      rw [hend, hafter, burntBy_cons]
      omega

/-- From every reachable state in which the pool quotes a share at one token or
more and holds what it reports as available: providers who ask for no more than
they have, and leave shares enough for what is lent, all get out, in whatever
order and parts they ask, each paid what the quote at the start said or more. -/
theorem everyone_can_leave {price : Int} (h : Reachable Deployed (Step n) s)
    (hconfigured : s.pool.token.isSome = true) (hunpaused : s.pool.paused = false)
    (hquoted : getSharePrice s.pool = .ok price) (hpar : s.pool.accounts.AtPar)
    (hheld : s.pool.totalLiquidity - s.pool.lockedLiquidity ≤ s.token.balance n.core.pool)
    (hproper : ∀ e ∈ exits, e.Proper n)
    (hshares : ∀ provider, burntBy provider exits ≤ s.pool.lpShares provider)
    (hcovered : s.pool.lockedLiquidity + deadSharesAmount + burnt exits ≤ s.pool.totalShares) :
    ∃ tr t paid, Run (Step n) s tr t ∧ tr.map Prod.snd = exits.map Exit.label ∧
      t.token.log = s.token.log ++ paid ∧
      List.Forall₂ (Honours n (calculateWithdrawal s.pool)) exits paid ∧
      ∀ provider, t.pool.lpShares provider
        = s.pool.lpShares provider - burntBy provider exits := by
  have hw : LiquidityPool.State.Sound n.core ⟨s.pool, s.token⟩ :=
    (invariant_of_reachable h).world.pool
  have hlocked : 0 ≤ s.pool.lockedLiquidity := hw.accounts.locked_nonneg
  have hasked := burnt_nonneg hproper
  have hS : 0 < s.pool.totalShares := by
    simp only [deadSharesAmount] at hcovered
    omega
  have hprice : price = s.pool.accounts.quote s.pool.totalShares :=
    sharePrice_quote hquoted hw.accounts hS
  have hone : 0 < price := hprice ▸ FlooredVault.one_le_price
  obtain ⟨token, htoken⟩ := Option.isSome_iff_exists.mp hconfigured
  have hready : Ready n.core price (burnt exits) ⟨s.pool, s.token⟩ := {
    accounts := hw.accounts
    unlocked := hw.safe.unlocked
    unpaused := hunpaused
    token := htoken.trans (congrArg some (hw.config.token token htoken))
    held := hheld
    par := hpar
    fits := quoted_fits hquoted hS
    quoted := Int.le_of_eq hprice
    covered := hcovered }
  have hprice' : withdrawalPrice s.pool = price := by
    have hq : calculateSharePriceInternal s.pool = .ok price := hquoted
    rw [withdrawalPrice, hq]
    rfl
  refine exits_run hready (fun shares hpos => ?_) hproper hshares
  have hworth := calculateWithdrawal_le (Int.le_of_lt hpos) (hprice' ▸ Int.le_of_lt hone)
  rwa [hprice'] at hworth

/-- Providers `20` and `21` leave together, the first of them in two parts. -/
theorem everyone_can_leave_sample : ∃ s t : State, s.pool.totalShares = 12500 ∧
    t.pool.lpShares 20 = 0 ∧ t.pool.lpShares 21 = 0 := by
  have hreplay : (replay (take .sample) sampleStart
      (setUp ++ prepare ++ [.by 21 70 (.pool (.deposit 21 1500))])).toOption.map
      (fun r => ((getSharePrice r.2.pool).toOption.map id,
        decide (r.2.pool.token.isSome = true ∧ r.2.pool.paused = false ∧
          r.2.pool.totalShares ≤ r.2.pool.totalLiquidity + deadSharesAmount ∧
          r.2.pool.totalLiquidity - r.2.pool.lockedLiquidity ≤ r.2.token.balance 2 ∧
          r.2.pool.lockedLiquidity + deadSharesAmount + 11500 ≤ r.2.pool.totalShares),
        r.2.pool.totalShares, r.2.pool.lpShares 20, r.2.pool.lpShares 21))
        = some (some 10000, true, 12500, 10000, 1500) := by
    decide +kernel
  obtain ⟨tr, s, hr, hs⟩ := replay_observed hreplay
  have hrun : Run (Step .sample) sampleStart tr s := run_of_replay (by decide +kernel) hr
  simp only [Prod.mk.injEq, decide_eq_true_eq] at hs
  obtain ⟨hprice, ⟨hconfigured, hunpaused, hpar, hheld, hcovered⟩, hS, h20, h21⟩ := hs
  obtain ⟨price, hquoted, -⟩ := toOption_map_some.mp hprice
  have hreach := hrun.reachable sampleStart_deployed
  let leave (provider : Address) (shares : Int) : Exit :=
    ⟨Env.signedBy [provider] 80, provider, shares⟩
  have hproper : ∀ e ∈ [leave 20 4000, leave 21 1500, leave 20 6000], e.Proper .sample := by
    simp only [List.forall_mem_cons]
    exact ⟨⟨by decide, by decide, by decide⟩, ⟨by decide, by decide, by decide⟩,
      ⟨by decide, by decide, by decide⟩, by simp⟩
  have hshares : ∀ provider, burntBy provider [leave 20 4000, leave 21 1500, leave 20 6000]
      ≤ s.pool.lpShares provider := by
    intro provider
    have h0 : 0 ≤ s.pool.lpShares provider :=
      (invariant_of_reachable hreach).world.pool.accounts.held_nonneg provider
    by_cases hp : provider = 20 ∨ provider = 21
    · rcases hp with rfl | rfl
      · rw [h20]
        decide
      · rw [h21]
        decide
    · have hnone : burntBy provider [leave 20 4000, leave 21 1500, leave 20 6000] = 0 := by
        rw [not_or] at hp
        simp [leave, Ne.symm hp.1, Ne.symm hp.2, burntBy, burnt]
      rw [hnone]
      exact h0
  obtain ⟨-, t, -, -, -, -, -, hend⟩ := everyone_can_leave hreach hconfigured hunpaused hquoted
    hpar hheld hproper hshares hcovered
  refine ⟨s, t, hS, ?_, ?_⟩
  · rw [hend, h20]
    decide
  · rw [hend, h21]
    decide

end StepFi.Network

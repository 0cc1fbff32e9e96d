import StepFi.LiquidityPool.Spec
import StepFi.Lib.FlooredVault
import StepFi.Lib.Transition
import Mathlib.Algebra.BigOperators.Group.Finset.Piecewise
import Mathlib.Algebra.Order.BigOperators.Group.Finset

/-!
# The pool's accounts

The four quantities the pool accounts with, apart from tokens and addresses:
`Accounts`. `Moves` lists what a call can do to them, `exec_moves` shows that
every entry point does one of these, and `Accounts.Sound` is what all of them
keep: the lock stays within the liquidity, and the share supply is the dead
shares plus what providers hold.
-/

namespace StepFi.LiquidityPool

open Lib

structure Accounts where
  total : Int
  locked : Int
  shares : Int
  held : Address → Int

def Storage.accounts (p : Storage) : Accounts where
  total := p.totalLiquidity
  locked := p.lockedLiquidity
  shares := p.totalShares
  held := p.lpShares

namespace Accounts

/-- The supply a deposit prices against: the first one seeds the dead shares. -/
def seeded (a : Accounts) : Int := if a.shares = 0 then deadSharesAmount else a.shares

/-- The quote for a supply of `shares`. -/
def quote (a : Accounts) (shares : Int) : Int :=
  FlooredVault.price sharePricePrecision (a.total + deadSharesAmount) shares

/-- What one call does to the accounts. -/
inductive Moves (a : Accounts) : Accounts → Prop
  | keep : Moves a a
  | deposit (provider : Address) (amount k : Int) : minAmount ≤ amount → 0 < k →
      k = amount * sharePricePrecision / a.quote a.seeded →
      Moves a { a with
        total := a.total + amount
        shares := a.seeded + k
        held := Function.update a.held provider (a.held provider + k) }
  | withdraw (provider : Address) (shares r : Int) : 0 < shares → shares ≤ a.held provider →
      r = shares * a.quote a.shares / sharePricePrecision → r ≤ a.total - a.locked →
      Moves a { a with
        total := a.total - r
        shares := a.shares - shares
        held := Function.update a.held provider (a.held provider - shares) }
  | lend (amount : Int) : 0 < amount → amount ≤ a.total - a.locked →
      Moves a { a with locked := a.locked + amount }
  | repay (principal gain : Int) : 0 ≤ principal → 0 ≤ gain →
      Moves a { a with locked := max 0 (a.locked - principal), total := a.total + gain }
  | earn (gain : Int) : 0 ≤ gain → Moves a { a with total := a.total + gain }
  | recover (amount : Int) : 0 < amount →
      Moves a { a with
        locked := a.locked - min amount a.locked
        total := a.total + min amount a.locked }
  | absorb (shortfall : Int) : 0 < shortfall →
      Moves a { a with
        locked := a.locked - min shortfall a.locked
        total := a.total - min shortfall a.total }

/-- The supply is the dead shares and what a finite set of providers holds;
before the first deposit there is none. -/
inductive Supplied (a : Accounts) : Prop
  | unseeded : a.shares = 0 → (∀ p, a.held p = 0) → Supplied a
  | seeded (ps : Finset Address) : a.shares = deadSharesAmount + ∑ p ∈ ps, a.held p →
      (∀ p, p ∉ ps → a.held p = 0) → Supplied a

structure Sound (a : Accounts) : Prop where
  locked_nonneg : 0 ≤ a.locked
  locked_le : a.locked ≤ a.total
  held_nonneg : ∀ p, 0 ≤ a.held p
  supplied : a.Supplied

variable {a b : Accounts}

theorem Sound.total_nonneg (h : a.Sound) : 0 ≤ a.total :=
  Int.le_trans h.locked_nonneg h.locked_le

/-- Enlarging the set of providers by non-holders changes nothing. -/
theorem sum_held_mono {ps qs : Finset Address} (h : ∀ p, p ∉ ps → a.held p = 0) (hs : ps ⊆ qs) :
    ∑ p ∈ qs, a.held p = ∑ p ∈ ps, a.held p :=
  (Finset.sum_subset hs fun p _ hp => h p hp).symm

/-- The supply after a provider's holding changed by `k`. -/
theorem sum_held_update (ps : Finset Address) (provider : Address) (v : Int)
    (hmem : provider ∈ ps) :
    ∑ p ∈ ps, Function.update a.held provider v p
      = ∑ p ∈ ps, a.held p + (v - a.held provider) := by
  rw [Finset.sum_update_of_mem hmem, ← Finset.add_sum_erase ps a.held hmem,
    Finset.sdiff_singleton_eq_erase]
  omega

theorem Sound.seeded_eq (h : a.Sound) :
    ∃ ps : Finset Address, a.seeded = deadSharesAmount + ∑ p ∈ ps, a.held p ∧
      ∀ p, p ∉ ps → a.held p = 0 := by
  rcases h.supplied with ⟨h0, hz⟩ | ⟨ps, hS, hz⟩
  · exact ⟨∅, by simp [seeded, h0], fun p _ => hz p⟩
  · have : 0 ≤ ∑ p ∈ ps, a.held p := Finset.sum_nonneg fun p _ => h.held_nonneg p
    have hne : a.shares ≠ 0 := by
      simp only [deadSharesAmount] at hS
      omega
    exact ⟨ps, by rw [seeded, if_neg hne, hS], hz⟩

theorem Sound.seeded_pos (h : a.Sound) : 0 < a.seeded := by
  obtain ⟨ps, hS, -⟩ := h.seeded_eq
  have : 0 ≤ ∑ p ∈ ps, a.held p := Finset.sum_nonneg fun p _ => h.held_nonneg p
  simp only [deadSharesAmount] at hS
  omega

/-- Any holder holds part of a seeded supply. -/
theorem Sound.shares_pos (h : a.Sound) {p : Address} (hp : 0 < a.held p) : 0 < a.shares := by
  rcases h.supplied with ⟨-, hz⟩ | ⟨ps, hS, -⟩
  · have := hz p
    omega
  · have : 0 ≤ ∑ p ∈ ps, a.held p := Finset.sum_nonneg fun p _ => h.held_nonneg p
    simp only [deadSharesAmount] at hS
    omega

theorem Sound.deposit (h : a.Sound) (provider : Address) {amount k : Int} (hamount : 0 ≤ amount)
    (hk : 0 ≤ k) :
    Sound { a with
      total := a.total + amount
      shares := a.seeded + k
      held := Function.update a.held provider (a.held provider + k) } := by
  have hl := h.locked_le
  refine ⟨h.locked_nonneg, show a.locked ≤ a.total + amount by omega, ?_, ?_⟩
  · intro p
    have hp := h.held_nonneg p
    by_cases he : p = provider
    · subst he
      simp only [Function.update_self]
      omega
    · simpa only [Function.update_of_ne he] using hp
  · obtain ⟨ps, hS, hz⟩ := h.seeded_eq
    have hz' : ∀ p, p ∉ insert provider ps → a.held p = 0 :=
      fun p hp => hz p fun hm => hp (Finset.mem_insert_of_mem hm)
    refine .seeded (insert provider ps) ?_ ?_
    · show a.seeded + k = _
      rw [sum_held_update _ _ _ (Finset.mem_insert_self ..),
        sum_held_mono hz (Finset.subset_insert ..), hS]
      omega
    · intro p hp
      have hne : p ≠ provider := fun e => hp (e ▸ Finset.mem_insert_self ..)
      simpa only [Function.update_of_ne hne] using hz' p hp

theorem Sound.withdraw (h : a.Sound) (provider : Address) {shares r : Int} (hpos : 0 < shares)
    (hle : shares ≤ a.held provider) (hr : r ≤ a.total - a.locked) :
    Sound { a with
      total := a.total - r
      shares := a.shares - shares
      held := Function.update a.held provider (a.held provider - shares) } := by
  refine ⟨h.locked_nonneg, show a.locked ≤ a.total - r by omega, ?_, ?_⟩
  · intro p
    have hp := h.held_nonneg p
    by_cases he : p = provider
    · subst he
      simp only [Function.update_self]
      omega
    · simpa only [Function.update_of_ne he] using hp
  · rcases h.supplied with ⟨-, hz⟩ | ⟨ps, hS, hz⟩
    · have := hz provider
      omega
    · have hmem : provider ∈ ps := by
        by_contra hn
        have := hz provider hn
        omega
      refine .seeded ps ?_ ?_
      · show a.shares - shares = _
        rw [sum_held_update _ _ _ hmem, hS]
        omega
      · intro p hp
        have hne : p ≠ provider := fun e => hp (e ▸ hmem)
        simpa only [Function.update_of_ne hne] using hz p hp

/-- Sound accounts stay sound under a change of the two liquidity counters that
keeps the lock within the total. -/
theorem Sound.reprice (h : a.Sound) {total locked : Int} (h0 : 0 ≤ locked) (hle : locked ≤ total) :
    Sound { a with total := total, locked := locked } := by
  refine ⟨h0, hle, h.held_nonneg, ?_⟩
  rcases h.supplied with ⟨h0, hz⟩ | ⟨ps, hS, hz⟩
  · exact .unseeded h0 hz
  · exact .seeded ps hS hz

theorem Moves.sound (hm : a.Moves b) (h : a.Sound) : b.Sound := by
  have h0 := h.locked_nonneg
  have hle := h.locked_le
  cases hm with
  | keep => exact h
  | deposit provider amount k hmin hk =>
    simp only [minAmount] at hmin
    exact h.deposit provider (by omega) (by omega)
  | withdraw provider shares r hpos hshares _ hr => exact h.withdraw provider hpos hshares hr
  | lend amount hpos havail => exact h.reprice (by omega) (by omega)
  | repay principal gain hq hg => exact h.reprice (by omega) (by omega)
  | earn gain hg => exact h.reprice h0 (by omega)
  | recover amount hpos => exact h.reprice (by omega) (by omega)
  | absorb shortfall hpos => exact h.reprice (by omega) (by omega)

end Accounts

/-! ## Every call is a move -/

section Calls

open Accounts

variable {d : Deployment} {active : Address → Option Bool} {env : Env} {call : Call}
variable {p p' : Storage} {s s' : State}

theorem sharePrice_quote {price : Int} (h : calculateSharePriceInternal p = .ok price)
    (hs : p.accounts.Sound) (hS : 0 < p.totalShares) :
    price = p.accounts.quote p.totalShares :=
  sharePrice_spec h hs.total_nonneg hS

/-- A deposit prices against the seeded supply. -/
theorem deposit_accounts {provider : Address} {amount k : Int} (hs : s.pool.accounts.Sound)
    (h : deposit d env provider amount s = .ok (k, s')) :
    let a := s.pool.accounts
    minAmount ≤ amount ∧ 0 < k ∧ k = amount * sharePricePrecision / a.quote a.seeded ∧
      s'.pool.accounts = { a with
        total := a.total + amount
        shares := a.seeded + k
        held := Function.update a.held provider (a.held provider + k) } := by
  obtain ⟨price, hprice, -, hmin, hk, hissued, -, -, rfl⟩ := deposit_spec h
  have hseed : (seedDeadShares s.pool).totalShares = s.pool.accounts.seeded := by
    rw [seedDeadShares_eq]
    rfl
  -- The dead shares of a first deposit are in the supply before the price is taken.
  have hquote : price = s.pool.accounts.quote s.pool.accounts.seeded := by
    rw [← hseed]
    refine (sharePrice_spec hprice ?_ ?_).trans ?_
    · rw [seedDeadShares_eq]
      exact hs.total_nonneg
    · rw [hseed]
      exact hs.seeded_pos
    · simp only [seedDeadShares_eq, quote, FlooredVault.price, Storage.accounts]
  have hamount : 0 ≤ amount * sharePricePrecision := by
    simp only [minAmount, sharePricePrecision] at hmin ⊢
    omega
  refine ⟨hmin, hk, ?_, ?_⟩
  · rw [← hquote, ← hissued, Int.tdiv_eq_ediv_of_nonneg hamount]
  · rw [seedDeadShares_eq]
    rfl

theorem withdraw_accounts {provider : Address} {shares r : Int} (hs : s.pool.accounts.Sound)
    (h : withdraw d env provider shares s = .ok (r, s')) :
    let a := s.pool.accounts
    0 < shares ∧ shares ≤ a.held provider ∧
      r = shares * a.quote a.shares / sharePricePrecision ∧ r ≤ a.total - a.locked ∧
      s'.pool.accounts = { a with
        total := a.total - r
        shares := a.shares - shares
        held := Function.update a.held provider (a.held provider - shares) } := by
  obtain ⟨price, hprice, -, hpos, hle, hr, havail, -, -, rfl⟩ := withdraw_spec h
  have hS : 0 < s.pool.totalShares := hs.shares_pos (Int.lt_of_lt_of_le hpos hle)
  have hquote := sharePrice_quote hprice hs hS
  have hone : 1 ≤ price := by
    rw [hquote]
    exact FlooredVault.one_le_price
  have hvalue : 0 ≤ shares * price := Int.mul_nonneg (by omega) (by omega)
  refine ⟨hpos, hle, ?_, havail, rfl⟩
  rw [← hr, hquote, Int.tdiv_eq_ediv_of_nonneg (hquote ▸ hvalue)]
  rfl

theorem deposit_moves {provider : Address} {amount k : Int} (hs : s.pool.accounts.Sound)
    (h : deposit d env provider amount s = .ok (k, s')) :
    s.pool.accounts.Moves s'.pool.accounts := by
  obtain ⟨hmin, hk, hissued, hs'⟩ := deposit_accounts hs h
  rw [hs']
  exact .deposit provider amount k hmin hk hissued

theorem withdraw_moves {provider : Address} {shares r : Int} (hs : s.pool.accounts.Sound)
    (h : withdraw d env provider shares s = .ok (r, s')) :
    s.pool.accounts.Moves s'.pool.accounts := by
  obtain ⟨hpos, hle, hr, havail, hs'⟩ := withdraw_accounts hs h
  rw [hs']
  exact .withdraw provider shares r hpos hle hr havail

/-- The calls on the pool's own storage. -/
def Call.Setter : Call → Prop
  | .deposit .. => False
  | .withdraw .. => False
  | .fundLoan .. => False
  | .receiveRepayment .. => False
  | .receiveGuarantee .. => False
  | .absorbLoss .. => False
  | .distributeInterest .. => False
  | .accumulateInterest .. => False
  | _ => True

/-- What fundings are charged to: the outflow window and the merchants' exposure. -/
structure Charges where
  outflowSeq : Nat
  outflowUsed : Int
  merchantFunded : Address → Int

def Storage.charges (p : Storage) : Charges where
  outflowSeq := p.outflowSeq
  outflowUsed := p.outflowUsed
  merchantFunded := p.merchantFunded

/-- What a call on the pool's own settings keeps. -/
structure Storage.Configures (p p' : Storage) : Prop where
  accounts : p'.accounts = p.accounts
  charges : p'.charges = p.charges
  exposureCap : 0 ≤ p.merchantExposureCap → 0 ≤ p'.merchantExposureCap
  lock : p'.reentrancyLocked = p.reentrancyLocked

theorem exec_setter (h : exec d active env call s = .ok s') (hc : call.Setter) :
    s'.token = s.token ∧ s.pool.Configures s'.pool := by
  have keep : ∀ r : Except Failure Storage, s.lift r = .ok s' →
      (∀ p, r = .ok p → s.pool.Configures p) →
      s'.token = s.token ∧ s.pool.Configures s'.pool := by
    intro r hr hkeep
    obtain ⟨hp, ht⟩ := lift_spec hr
    exact ⟨ht, hkeep _ hp⟩
  have admin : ∀ (a : Address) (write : Storage → Storage),
      s.lift (adminSet env a write s.pool) = .ok s' → s.pool.Configures (write s.pool) →
      s'.token = s.token ∧ s.pool.Configures s'.pool := by
    intro a write hr hw
    refine keep _ hr fun p hp => ?_
    rw [(adminSet_spec hp).2.2]
    exact hw
  cases call with
  | initializeContract =>
    refine keep _ h fun p hp => ?_
    rw [(initializeContract_spec hp).2]
    exact ⟨rfl, rfl, id, rfl⟩
  | setCreditline => exact admin _ _ h ⟨rfl, rfl, id, rfl⟩
  | setTreasury => exact admin _ _ h ⟨rfl, rfl, id, rfl⟩
  | setMerchantFund => exact admin _ _ h ⟨rfl, rfl, id, rfl⟩
  | setVendorRegistry => exact admin _ _ h ⟨rfl, rfl, id, rfl⟩
  | pause => exact admin _ _ h ⟨rfl, rfl, id, rfl⟩
  | unpause => exact admin _ _ h ⟨rfl, rfl, id, rfl⟩
  | setOutflowCapBps =>
    refine keep _ h fun p hp => ?_
    rw [setOutflowCapBps_spec hp]
    exact ⟨rfl, rfl, id, rfl⟩
  | setMerchantExposureCap =>
    refine keep _ h fun p hp => ?_
    obtain ⟨hamount, rfl⟩ := setMerchantExposureCap_spec hp
    exact ⟨rfl, rfl, fun _ => hamount, rfl⟩
  | setAdmin =>
    refine keep _ h fun p hp => ?_
    rw [setAdmin_spec hp]
    exact ⟨rfl, rfl, id, rfl⟩
  | setParametersContract =>
    refine keep _ h fun p hp => ?_
    rw [setParametersContract_spec hp]
    exact ⟨rfl, rfl, id, rfl⟩
  | proposeUpgrade =>
    refine keep _ h fun p hp => ?_
    obtain ⟨pending, rfl⟩ := proposeUpgrade_spec hp
    exact ⟨rfl, rfl, id, rfl⟩
  | executeUpgrade =>
    refine keep _ h fun p hp => ?_
    obtain ⟨version, rfl⟩ := executeUpgrade_spec hp
    exact ⟨rfl, rfl, id, rfl⟩
  | upgrade =>
    refine keep _ h fun p hp => ?_
    obtain ⟨version, rfl⟩ := executeUpgrade_spec hp
    exact ⟨rfl, rfl, id, rfl⟩
  | _ => exact hc.elim

theorem exec_moves (hs : s.pool.accounts.Sound) (h : exec d active env call s = .ok s') :
    s.pool.accounts.Moves s'.pool.accounts := by
  cases call with
  | deposit provider amount =>
    obtain ⟨⟨k, s₁⟩, h₁, rfl⟩ := map_ok.mp h
    exact deposit_moves hs h₁
  | withdraw provider shares =>
    obtain ⟨⟨r, s₁⟩, h₁, rfl⟩ := map_ok.mp h
    exact withdraw_moves hs h₁
  | fundLoan creditline merchant amount =>
    obtain ⟨-, -, hpos, havail, -, _, _, _, rfl⟩ := fundLoan_spec h
    exact .lend amount hpos havail
  | receiveRepayment creditline principal interest =>
    obtain ⟨-, -, hq, hj, -, -, rfl⟩ := receiveRepayment_spec h
    refine .repay principal _ hq ?_
    split
    · rename_i hpos
      exact (shares_nonneg hpos).1
    · exact Int.le_refl 0
  | receiveGuarantee creditline amount =>
    obtain ⟨-, -, -, hpos, -, -, -, -, -, -, rfl⟩ := receiveGuarantee_ok.mp h
    exact .recover amount hpos
  | absorbLoss creditline shortfall =>
    obtain ⟨-, -, -, hpos, -, -, -, rfl⟩ := absorbLoss_ok.mp h
    exact .absorb shortfall hpos
  | distributeInterest creditline interest =>
    obtain ⟨-, -, hpos, -, -, rfl⟩ := distributeInterest_spec h
    exact .earn _ (shares_nonneg hpos).1
  | accumulateInterest creditline interest =>
    obtain ⟨-, -, hpos, -, -, rfl⟩ := distributeInterest_spec h
    exact .earn _ (shares_nonneg hpos).1
  | _ =>
    rw [(exec_setter h trivial).2.accounts]
    exact .keep

end Calls

/-! ## Runs of the pool -/

/-- One event in the life of the pool: a call by anyone, with what the vendor
registry answers at the time, or a change of the token ledger by others. -/
inductive Label where
  | call (active : Address → Option Bool) (env : Env) (call : Call)
  | ledger (token : Token)

def take (d : Deployment) (s : State) : Label → Except Failure State
  | .call active env call => exec d active env call s
  | .ledger token => .ok { s with token := token }

def Step (d : Deployment) (s : State) (l : Label) (s' : State) : Prop := take d s l = .ok s'

/-- The pool just deployed, with nothing stored. -/
def Deployed (s : State) : Prop := s.pool = Storage.empty

theorem Deployed.sound {s : State} (h : Deployed s) : s.pool.accounts.Sound := by
  rw [h]
  exact ⟨Int.le_refl 0, Int.le_refl 0, fun _ => Int.le_refl 0, .unseeded rfl fun _ => rfl⟩

theorem Step.sound {d : Deployment} {s s' : State} {l : Label} (hs : s.pool.accounts.Sound)
    (h : Step d s l s') : s'.pool.accounts.Sound := by
  cases l with
  | call active env call => exact (exec_moves hs h).sound hs
  | ledger token =>
    cases h
    exact hs

theorem sound_of_reachable {d : Deployment} {s : State} (h : Reachable Deployed (Step d) s) :
    s.pool.accounts.Sound :=
  h.invariant (fun _ h0 => h0.sound) (fun _ _ _ _ hs hstep => Step.sound hs hstep)

end StepFi.LiquidityPool

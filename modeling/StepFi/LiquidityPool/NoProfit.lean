import StepFi.LiquidityPool.Accounts
import Mathlib.Algebra.Order.BigOperators.Group.Finset

/-!
# No profit from deposits and withdrawals

A group of providers who hold no shares deposits and withdraws while nobody else
acts on the pool. The group's shares are what the supply gained since it came
(`Joined.held_le`), and its net payment covers them at the price it found
(`FlooredVault.Covered`); so at no point has it taken out more than it put in.
-/

namespace StepFi.LiquidityPool

open Lib Lib.FlooredVault

/-- What happens while only the group acts on the pool: its calls, and token
movements elsewhere. -/
inductive LpAct where
  | deposit (env : Env) (provider : Address) (amount : Int)
  | withdraw (env : Env) (provider : Address) (shares : Int)
  | ledger (token : Token)

/-- The providers of the group make the calls. -/
def LpAct.By (group : Set Address) : LpAct → Prop
  | .deposit _ provider _ => provider ∈ group
  | .withdraw _ provider _ => provider ∈ group
  | .ledger _ => True

/-- The pool while the group acts, with what the group paid in and was paid. -/
structure Session where
  state : State
  deposited : Int
  withdrawn : Int

/-- A call that fails changes nothing. -/
def Session.act (d : Deployment) (x : Session) : LpAct → Session
  | .deposit env provider amount =>
    match LiquidityPool.deposit d env provider amount x.state with
    | .ok (_, s) => { x with state := s, deposited := x.deposited + amount }
    | .error _ => x
  | .withdraw env provider shares =>
    match LiquidityPool.withdraw d env provider shares x.state with
    | .ok (amountReturned, s) =>
      { x with state := s, withdrawn := x.withdrawn + amountReturned }
    | .error _ => x
  | .ledger token => { x with state := { x.state with token := token } }

def session (d : Deployment) (s : State) (acts : List LpAct) : Session :=
  acts.foldl (Session.act d) ⟨s, 0, 0⟩

/-- What holds of the pool while the group acts, seen from the accounts `base`
it found: the others hold what they held, and the group's net payment is in the
liquidity and covers what the supply gained. -/
structure Joined (base : Accounts) (group : Set Address) (x : Session) : Prop where
  sound : x.state.pool.accounts.Sound
  others : ∀ p, p ∉ group → x.state.pool.accounts.held p = base.held p
  total : x.state.pool.accounts.total = base.total + (x.deposited - x.withdrawn)
  covered : Covered sharePricePrecision (base.total + deadSharesAmount) base.seeded
    (x.deposited - x.withdrawn) (x.state.pool.accounts.seeded - base.seeded)

variable {d : Deployment} {base : Accounts} {group : Set Address} {x : Session} {s : State}

theorem Joined.start (hs : s.pool.accounts.Sound) :
    Joined s.pool.accounts group ⟨s, 0, 0⟩ := by
  refine ⟨hs, fun _ _ => rfl, by simp, ?_⟩
  simpa using Covered.start

/-- A member's shares are among those the supply gained. -/
theorem Joined.held_le (h : Joined base group x) (hbase : base.Sound)
    (hfresh : ∀ p ∈ group, base.held p = 0) {provider : Address} (hp : provider ∈ group) :
    x.state.pool.accounts.held provider ≤ x.state.pool.accounts.seeded - base.seeded := by
  obtain ⟨ps, hS, hz⟩ := h.sound.seeded_eq
  obtain ⟨qs, hS₀, hz₀⟩ := hbase.seeded_eq
  -- One set of providers carries both supplies, and the member too.
  have hps : ps ⊆ insert provider (ps ∪ qs) := fun _ hm =>
    Finset.mem_insert_of_mem (Finset.mem_union_left _ hm)
  have hqs : qs ⊆ insert provider (ps ∪ qs) := fun _ hm =>
    Finset.mem_insert_of_mem (Finset.mem_union_right _ hm)
  rw [← Accounts.sum_held_mono hz hps] at hS
  rw [← Accounts.sum_held_mono hz₀ hqs] at hS₀
  have hgain : ∀ p ∈ insert provider (ps ∪ qs),
      0 ≤ x.state.pool.accounts.held p - base.held p := by
    intro p _
    by_cases hg : p ∈ group
    · rw [hfresh p hg, Int.sub_zero]
      exact h.sound.held_nonneg p
    · rw [h.others p hg, Int.sub_self]
  have hone := Finset.single_le_sum hgain (Finset.mem_insert_self provider (ps ∪ qs))
  rw [Finset.sum_sub_distrib, hfresh provider hp] at hone
  omega

theorem Joined.deposit (h : Joined base group x) (hbase : base.Sound) {env : Env}
    {provider : Address} {amount k : Int} {s' : State} (hp : provider ∈ group)
    (hd : LiquidityPool.deposit d env provider amount x.state = .ok (k, s')) :
    Joined base group { x with state := s', deposited := x.deposited + amount } := by
  obtain ⟨hmin, hk, hissued, hs'⟩ := deposit_accounts h.sound hd
  have hsound := (deposit_moves h.sound hd).sound h.sound
  have htotal := h.total
  have hseeded : s'.pool.accounts.seeded = x.state.pool.accounts.seeded + k := by
    have := h.sound.seeded_pos
    simp only [hs', Accounts.seeded] at this ⊢
    rw [if_neg (by omega)]
  refine ⟨hsound, ?_, ?_, ?_⟩
  · intro p hn
    have hne : p ≠ provider := fun e => hn (e ▸ hp)
    simp only [hs', Function.update_of_ne hne]
    exact h.others p hn
  · simp only [hs']
    omega
  · -- The shares issued are worth at most the deposit, at the price before it.
    have hprice : k * price sharePricePrecision
        (base.total + deadSharesAmount + (x.deposited - x.withdrawn))
        (base.seeded + (x.state.pool.accounts.seeded - base.seeded))
          ≤ amount * sharePricePrecision := by
      have hE : base.total + deadSharesAmount + (x.deposited - x.withdrawn)
          = x.state.pool.accounts.total + deadSharesAmount := by omega
      have hS : base.seeded + (x.state.pool.accounts.seeded - base.seeded)
          = x.state.pool.accounts.seeded := by omega
      rw [hE, hS, hissued]
      exact Int.ediv_mul_le _ (by
        have := one_le_price (P := sharePricePrecision)
          (E := x.state.pool.accounts.total + deadSharesAmount)
          (S := x.state.pool.accounts.seeded)
        exact show Accounts.quote _ _ ≠ 0 by
          unfold Accounts.quote
          omega)
    have hnext := h.covered.deposit hbase.seeded_pos (Int.le_of_lt hk) hprice
    have hnet : x.deposited + amount - x.withdrawn = x.deposited - x.withdrawn + amount := by
      omega
    have hheld : s'.pool.accounts.seeded - base.seeded
        = x.state.pool.accounts.seeded - base.seeded + k := by omega
    simpa only [hnet, hheld] using hnext

theorem Joined.withdraw (h : Joined base group x) (hbase : base.Sound)
    (hfresh : ∀ p ∈ group, base.held p = 0) {env : Env} {provider : Address} {shares r : Int}
    {s' : State} (hp : provider ∈ group)
    (hw : LiquidityPool.withdraw d env provider shares x.state = .ok (r, s')) :
    Joined base group { x with state := s', withdrawn := x.withdrawn + r } := by
  obtain ⟨hpos, hle, hr, havail, hs'⟩ := withdraw_accounts h.sound hw
  have hsound := (withdraw_moves h.sound hw).sound h.sound
  have htotal := h.total
  have hshares : 0 < x.state.pool.accounts.shares :=
    h.sound.shares_pos (Int.lt_of_lt_of_le hpos hle)
  have hseed : x.state.pool.accounts.seeded = x.state.pool.accounts.shares := by
    rw [Accounts.seeded, if_neg (by omega)]
  -- The dead shares stay, so the supply is not exhausted.
  have hle' := Int.le_trans hle (h.held_le hbase hfresh hp)
  have hbasepos := hbase.seeded_pos
  have hseeded : s'.pool.accounts.seeded = x.state.pool.accounts.seeded - shares := by
    rw [hseed] at hle' ⊢
    simp only [hs', Accounts.seeded]
    rw [if_neg (by omega)]
  refine ⟨hsound, ?_, ?_, ?_⟩
  · intro p hn
    have hne : p ≠ provider := fun e => hn (e ▸ hp)
    simp only [hs', Function.update_of_ne hne]
    exact h.others p hn
  · simp only [hs']
    omega
  · -- The amount paid is at most what the shares are worth, at the price before it.
    have hprice : r * sharePricePrecision ≤ shares * price sharePricePrecision
        (base.total + deadSharesAmount + (x.deposited - x.withdrawn))
        (base.seeded + (x.state.pool.accounts.seeded - base.seeded)) := by
      have hE : base.total + deadSharesAmount + (x.deposited - x.withdrawn)
          = x.state.pool.accounts.total + deadSharesAmount := by omega
      have hS : base.seeded + (x.state.pool.accounts.seeded - base.seeded)
          = x.state.pool.accounts.shares := by omega
      rw [hE, hS, hr]
      exact Int.ediv_mul_le _ (by decide)
    have hnext := h.covered.withdraw hbasepos hle' hprice
    have hnet : x.deposited - (x.withdrawn + r) = x.deposited - x.withdrawn - r := by omega
    have hheld : s'.pool.accounts.seeded - base.seeded
        = x.state.pool.accounts.seeded - base.seeded - shares := by omega
    simpa only [hnet, hheld] using hnext

theorem Joined.act (h : Joined base group x) (hbase : base.Sound)
    (hfresh : ∀ p ∈ group, base.held p = 0) {act : LpAct} (hby : act.By group) :
    Joined base group (x.act d act) := by
  cases act with
  | deposit env provider amount =>
    cases hd : LiquidityPool.deposit d env provider amount x.state with
    | error e => simpa only [Session.act, hd] using h
    | ok ks => simpa only [Session.act, hd] using h.deposit hbase hby hd
  | withdraw env provider shares =>
    cases hw : LiquidityPool.withdraw d env provider shares x.state with
    | error e => simpa only [Session.act, hw] using h
    | ok rs => simpa only [Session.act, hw] using h.withdraw hbase hfresh hby hw
  | ledger token => exact ⟨h.sound, h.others, h.total, h.covered⟩

theorem Joined.session (h : Joined base group x) (hbase : base.Sound)
    (hfresh : ∀ p ∈ group, base.held p = 0) {acts : List LpAct}
    (hby : ∀ act ∈ acts, act.By group) : Joined base group (acts.foldl (Session.act d) x) := by
  induction acts generalizing x with
  | nil => exact h
  | cons act acts ih =>
    obtain ⟨hact, hrest⟩ := List.forall_mem_cons.mp hby
    exact ih (h.act hbase hfresh hact) hrest

/-- Providers who come without shares and only deposit and withdraw, the pool's
first deposit included, never take out more than they put in. -/
theorem withdrawn_le_deposited (hs : Reachable Deployed (Step d) s)
    (hfresh : ∀ p ∈ group, s.pool.lpShares p = 0) (acts : List LpAct)
    (hby : ∀ act ∈ acts, act.By group) :
    (session d s acts).withdrawn ≤ (session d s acts).deposited := by
  have hsound := sound_of_reachable hs
  have hjoined := (Joined.start hsound).session (d := d) hsound hfresh hby
  have hnet := hjoined.covered.net_nonneg (by decide)
  simp only [session]
  omega

/-- A pool set up and entered by provider `21`, before provider `22` comes. -/
def sampleStart : State × List Label :=
  let env (a : Address) := Env.signedBy [a] 100
  (⟨Storage.empty, ⟨fun _ => 100000, []⟩⟩,
    [.call (fun _ => none) (env 10) (.initializeContract 10 6 11 12 none),
      .call (fun _ => none) (env 21) (.deposit 21 4000)])

def sampleActs : List LpAct :=
  let env := Env.signedBy [22] 100
  [.deposit env 22 1500, .withdraw env 22 700]

theorem withdrawn_le_deposited_sample : ∃ s, s.pool.totalShares = 5000 ∧
    (session .sample s sampleActs).withdrawn = 700 ∧
    (session .sample s sampleActs).withdrawn ≤ (session .sample s sampleActs).deposited := by
  have hrun : (replay (take .sample) sampleStart.1 sampleStart.2).toOption.map
      (fun r => (r.2.pool.totalShares, r.2.pool.lpShares 22,
        (session .sample r.2 sampleActs).withdrawn)) = some (5000, 0, 700) := by
    decide +kernel
  obtain ⟨_, s, hreach, hs⟩ :=
    Reachable.of_replay (I := Deployed) (R := Step .sample) hrun rfl fun _ _ _ h => h
  simp only [Prod.mk.injEq] at hs
  obtain ⟨hS, hfresh, hw⟩ := hs
  have hgroup : ∀ p ∈ ({22} : Set Address), s.pool.lpShares p = 0 := by
    rintro p rfl
    exact hfresh
  refine ⟨s, hS, hw, withdrawn_le_deposited hreach hgroup sampleActs ?_⟩
  simp [sampleActs, LpAct.By]

end StepFi.LiquidityPool

import StepFi.LiquidityPool.Price

/-!
# Where interest goes

A payment of interest adds the liquidity providers' share to `total_liquidity` and
sends the two fees away. A fee whose recipient is not configured is not sent, and
not added to the liquidity either: the pool keeps it outside its accounts. So the
ledger and the accounts agree on a payment exactly when every positive fee leaves
the pool (`interest_counted_iff`).
-/

namespace StepFi.LiquidityPool

open Lib

variable {d : Deployment} {active : Address → Option Bool} {env : Env} {call : Call}
variable {s s' t : State}

/-- The principal and the interest that a call brings into the pool. -/
def Call.payment : Call → Option (Int × Int)
  | .receiveRepayment _ principal interest => some (principal, interest)
  | .distributeInterest _ interest => some (0, interest)
  | .accumulateInterest _ interest => some (0, interest)
  | _ => none

section Payment

variable {principal interest : Int}

/-! ## Fees -/

/-- A fee goes to an account other than the pool's own. -/
def Leaves (d : Deployment) (recipient : Option Address) : Prop :=
  recipient ≠ none ∧ recipient ≠ some d.pool

instance (d : Deployment) (recipient : Option Address) : Decidable (Leaves d recipient) :=
  inferInstanceAs (Decidable (_ ∧ _))

/-- Both fees on `interest` leave the pool. The protocol fee on less than `10` is
zero, the merchant fee never is. -/
def FeesLeave (d : Deployment) (p : Storage) (interest : Int) : Prop :=
  Leaves d p.merchantFund ∧ (Leaves d p.treasury ∨ interest < 10)

theorem feePaid_own (d : Deployment) (recipient : Option Address) {amount : Int} (t : Token)
    (h : 0 ≤ amount) :
    (feePaid d recipient amount t).balance d.pool =
      t.balance d.pool - if Leaves d recipient then amount else 0 := by
  rw [feePaid_balance d recipient t h]
  cases recipient with
  | none => simp [Leaves]
  | some r =>
    by_cases hr : r = d.pool
    · simp [Leaves, hr]
    · simp [Leaves, hr]

/-- The part of an interest payment that stays in the pool and is not counted. -/
def uncounted (d : Deployment) (p : Storage) (interest : Int) : Int :=
  (if Leaves d p.treasury then 0 else protocolShare interest) +
    if Leaves d p.merchantFund then 0 else merchantShare interest

theorem protocolShare_pos_iff (h : 0 < interest) : 0 < protocolShare interest ↔ 10 ≤ interest := by
  rw [protocolShare_eq h]
  omega

theorem merchantShare_pos (h : 0 < interest) : 0 < merchantShare interest := by
  rw [merchantShare, lpShare_eq h, protocolShare_eq h]
  omega

theorem uncounted_nonneg (d : Deployment) (p : Storage) (h : 0 < interest) :
    0 ≤ uncounted d p interest := by
  obtain ⟨-, hprotocol, hmerchant⟩ := shares_nonneg h
  unfold uncounted
  split_ifs <;> omega

theorem uncounted_eq_zero (d : Deployment) (p : Storage) (h : 0 < interest) :
    uncounted d p interest = 0 ↔ FeesLeave d p interest := by
  obtain ⟨-, hprotocol, -⟩ := shares_nonneg h
  have hfee := protocolShare_pos_iff h
  have hmerchant := merchantShare_pos h
  unfold uncounted FeesLeave
  by_cases ht : Leaves d p.treasury <;> by_cases hf : Leaves d p.merchantFund
  · simp [ht, hf]
  · simp only [ht, hf, if_true, if_false, false_and, iff_false]
    omega
  · simp only [ht, hf, if_true, if_false, true_and, false_or]
    omega
  · simp only [ht, hf, if_false, false_and, iff_false]
    omega

/-! ## One payment -/

/-- A payment of interest through any of the three entry points: the registered
credit line pays, the providers' share is added to the liquidity, and the fees are
sent from what arrived. -/
theorem payment_spec (h : exec d active env call s = .ok s')
    (hpay : call.payment = some (principal, interest)) (hpos : 0 < interest) :
    ∃ creditline, env.auths creditline = true ∧
      s'.pool.totalLiquidity = s.pool.totalLiquidity + lpShare interest ∧
      s'.token = repaidLedger d s.pool creditline principal interest s.token := by
  cases call with
  | receiveRepayment creditline q j =>
    obtain ⟨rfl, rfl⟩ := Prod.mk.injEq .. ▸ Option.some.inj hpay
    obtain ⟨hauth, -, -, -, -, -, rfl⟩ := receiveRepayment_spec h
    exact ⟨creditline, hauth, by simp only [repaid, hpos, if_true], rfl⟩
  | distributeInterest creditline j =>
    obtain ⟨rfl, rfl⟩ := Prod.mk.injEq .. ▸ Option.some.inj hpay
    obtain ⟨hauth, -, -, -, -, rfl⟩ := distributeInterest_spec h
    exact ⟨creditline, hauth, rfl, rfl⟩
  | accumulateInterest creditline j =>
    obtain ⟨rfl, rfl⟩ := Prod.mk.injEq .. ▸ Option.some.inj hpay
    obtain ⟨hauth, -, -, -, -, rfl⟩ := distributeInterest_spec h
    exact ⟨creditline, hauth, rfl, rfl⟩
  | _ => simp [Call.payment] at hpay

/-- The pool gains the principal, what it adds to its liquidity, and what it leaves
uncounted. -/
theorem payment_balance (h : exec d active env call s = .ok s')
    (hself : env.auths d.pool = false)
    (hpay : call.payment = some (principal, interest)) (hpos : 0 < interest) :
    s'.token.balance d.pool - s.token.balance d.pool - principal =
      s'.pool.totalLiquidity - s.pool.totalLiquidity + uncounted d s.pool interest := by
  obtain ⟨creditline, hauth, htotal, htoken⟩ := payment_spec h hpay hpos
  have hne : d.pool ≠ creditline := by
    intro he
    rw [he, hauth] at hself
    contradiction
  obtain ⟨-, hprotocol, hmerchant⟩ := shares_nonneg hpos
  have hsum := shares_sum interest
  rw [htotal, htoken, repaidLedger, if_pos hpos, feePaid_own d _ _ hmerchant,
    feePaid_own d _ _ hprotocol, Token.move_balance, if_neg hne, if_pos rfl, uncounted]
  split_ifs <;> omega

end Payment

/-! ## Runs of payments -/

/-- A payment of interest, or the fee recipients set anew. -/
inductive Income where
  | pay (active : Address → Option Bool) (env : Env) (call : Call)
  | configure (treasury merchantFund : Option Address)

def Income.principal : Income → Int
  | .pay _ _ call => (call.payment.map Prod.fst).getD 0
  | .configure .. => 0

def Income.interest : Income → Int
  | .pay _ _ call => (call.payment.map Prod.snd).getD 0
  | .configure .. => 0

def receive (d : Deployment) (s : State) : Income → Except Failure State
  | .pay active env call => exec d active env call s
  | .configure treasury merchantFund =>
    .ok { s with pool := { s.pool with treasury := treasury, merchantFund := merchantFund } }

/-- The call brings interest; no contract calls itself, so the pool does not pay it. -/
def Income.Genuine (d : Deployment) : Income → Prop
  | .pay active env call =>
    env.auths d.pool = false ∧ 0 < (Income.pay active env call).interest
  | .configure .. => True

instance (d : Deployment) (x : Income) : Decidable (x.Genuine d) := by
  unfold Income.Genuine
  split <;> infer_instance

def Receives (d : Deployment) (s : State) (x : Income) (s' : State) : Prop :=
  x.Genuine d ∧ receive d s x = .ok s'

/-- What the pool gained beside the principal is what its liquidity grew by. -/
def State.Counted (d : Deployment) (s : State) (principal : Int) (s' : State) : Prop :=
  s'.token.balance d.pool - s.token.balance d.pool - principal =
    s'.pool.totalLiquidity - s.pool.totalLiquidity

instance (d : Deployment) (s : State) (principal : Int) (s' : State) :
    Decidable (s.Counted d principal s') :=
  inferInstanceAs (Decidable (_ = _))

/-- The fees of a payment, if it is one, leave the pool. -/
def Income.FeesLeave (d : Deployment) (s : State) (x : Income) : Prop :=
  x.interest = 0 ∨ LiquidityPool.FeesLeave d s.pool x.interest

instance (d : Deployment) (s : State) (x : Income) : Decidable (x.FeesLeave d s) :=
  inferInstanceAs (Decidable (_ ∨ _ ∧ _))

theorem receives_balance {x : Income} (h : Receives d s x s') :
    ∃ kept, 0 ≤ kept ∧ (kept = 0 ↔ x.FeesLeave d s) ∧
      s'.token.balance d.pool - s.token.balance d.pool - x.principal =
        s'.pool.totalLiquidity - s.pool.totalLiquidity + kept := by
  obtain ⟨hgenuine, hexec⟩ := h
  cases x with
  | pay active env call =>
    obtain ⟨hself, hpos⟩ := hgenuine
    simp only [Income.interest] at hpos
    cases hpay : call.payment with
    | none => simp [hpay] at hpos
    | some payment =>
      obtain ⟨principal, interest⟩ := payment
      simp only [hpay, Option.map_some, Option.getD_some] at hpos
      refine ⟨uncounted d s.pool interest, uncounted_nonneg d s.pool hpos, ?_, ?_⟩
      · rw [uncounted_eq_zero d s.pool hpos, Income.FeesLeave]
        simp [Income.interest, hpay, Int.ne_of_gt hpos]
      · simpa [Income.principal, hpay] using payment_balance hexec hself hpay hpos
  | configure treasury merchantFund =>
    obtain rfl := Except.ok.inj hexec
    refine ⟨0, Int.le_refl 0, by simp [Income.FeesLeave, Income.interest], ?_⟩
    simp [Income.principal]

/-- In a run of payments, with the recipients set anew at any time between them,
every payment is counted in full, and what the pool holds grows by what it counts
over the whole run, each exactly when the fees of every payment leave the pool. -/
theorem interest_counted_iff {tr : List (State × Income)} (h : Run (Receives d) s tr t) :
    ((∀ x ∈ outcomes tr t, x.1.Counted d x.2.1.principal x.2.2) ↔
        ∀ x ∈ tr, x.2.FeesLeave d x.1) ∧
      (s.Counted d (tr.map fun x => x.2.principal).sum t ↔ ∀ x ∈ tr, x.2.FeesLeave d x.1) := by
  constructor
  · refine h.outcomes_iff_steps (I := fun u => u = s)
      (Q := fun u x u' => u.Counted d x.principal u') (C := fun u x => x.FeesLeave d u) rfl ?_
    intro u x u' _ hstep
    obtain ⟨kept, -, hiff, hbalance⟩ := receives_balance hstep
    rw [← hiff, State.Counted]
    omega
  · have hgrowth := h.growth_iff_steps
      (m := fun u => u.token.balance d.pool - u.pool.totalLiquidity) (g := Income.principal)
      (C := fun u x => x.FeesLeave d u) ?_ ?_
    · rw [← hgrowth, State.Counted]
      omega
    · intro u x u' hstep
      obtain ⟨kept, hkept, -, hbalance⟩ := receives_balance hstep
      show u.token.balance d.pool - u.pool.totalLiquidity + x.principal
        ≤ u'.token.balance d.pool - u'.pool.totalLiquidity
      omega
    · intro u x u' hstep
      obtain ⟨kept, -, hiff, hbalance⟩ := receives_balance hstep
      rw [← hiff]
      show u'.token.balance d.pool - u'.pool.totalLiquidity =
        u.token.balance d.pool - u.pool.totalLiquidity + x.principal ↔ kept = 0
      omega

/-- The credit line `1` registered, and the fee recipients `treasury` and
`merchantFund`. -/
def paying (treasury merchantFund : Option Address) : State where
  pool := { Storage.empty with
    token := some 6
    creditline := some 1
    treasury := treasury
    merchantFund := merchantFund }
  token := ⟨fun _ => 1000, []⟩

def paymentRun : List Income :=
  let pay := Income.pay (fun _ => none) (Env.signedBy [1] 100)
  [pay (.receiveRepayment 1 50 100), .configure none (some 12), pay (.accumulateInterest 1 9)]

/-- A repayment to configured recipients, then an interest so small that no
treasury is needed. -/
theorem interest_counted_iff_sample : ∃ tr t,
    Run (Receives .sample) (paying (some 11) (some 12)) tr t ∧
      (∀ x ∈ outcomes tr t, x.1.Counted .sample x.2.1.principal x.2.2) ∧
      (paying (some 11) (some 12)).Counted .sample (tr.map fun x => x.2.principal).sum t := by
  have hreplay : (replay (receive .sample) (paying (some 11) (some 12)) paymentRun).toOption.map
      (fun r => decide (∀ x ∈ r.1, x.2.FeesLeave .sample x.1)) = some true := by
    decide +kernel
  obtain ⟨tr, t, hok, hleave⟩ := replay_observed hreplay
  have hrun : Run (Receives .sample) (paying (some 11) (some 12)) tr t := by
    refine Run.of_replay (fun u x u' hx hu => ⟨?_, hu⟩) hok
    have hgenuine : ∀ x ∈ paymentRun, x.Genuine .sample := by decide
    exact hgenuine x hx
  have hfees := of_decide_eq_true hleave
  obtain ⟨heach, htotal⟩ := interest_counted_iff hrun
  exact ⟨tr, t, hrun, heach.mpr hfees, htotal.mpr hfees⟩

def ownTreasuryRun : List Label :=
  let call := Label.call (fun _ => none) (Env.signedBy [10] 100)
  [call (.initializeContract 10 6 2 12 none), call (.setCreditline 10 1)]

/-- Of an interest of `100` paid to a pool with no recipients configured all of it
stays, and `85` are counted; of one paid to a pool that was given its own address
`2` as the treasury, `95` stay. -/
theorem fees_kept_uncounted :
    (∃ s', exec .sample (fun _ => none) (Env.signedBy [1] 100) (.receiveRepayment 1 0 100)
        (paying none none) = .ok s' ∧ ¬(paying none none).Counted .sample 0 s') ∧
      ∃ s s', Reachable Deployed (Step .sample) s ∧
        exec .sample (fun _ => none) (Env.signedBy [1] 100) (.receiveRepayment 1 0 100) s = .ok s' ∧
        ¬s.Counted .sample 0 s' := by
  constructor
  · have hexec : (exec .sample (fun _ => none) (Env.signedBy [1] 100) (.receiveRepayment 1 0 100)
        (paying none none)).toOption.map
          (fun s' => decide ((paying none none).Counted .sample 0 s')) = some false := by
      decide +kernel
    obtain ⟨s', hs', hcounted⟩ := toOption_map_some.mp hexec
    exact ⟨s', hs', of_decide_eq_false hcounted⟩
  · have hrun : (replay (take .sample) sampleDeployed ownTreasuryRun).toOption.map (fun r =>
        (exec .sample (fun _ => none) (Env.signedBy [1] 100) (.receiveRepayment 1 0 100)
          r.2).toOption.map (fun s' => decide (r.2.Counted .sample 0 s'))) =
          some (some false) := by
      decide +kernel
    obtain ⟨_, s, hreach, hexec⟩ :=
      Reachable.of_replay (I := Deployed) (R := Step .sample) hrun rfl fun _ _ _ h => h
    obtain ⟨s', hs', hcounted⟩ := toOption_map_some.mp hexec
    exact ⟨s, s', hreach, hs', of_decide_eq_false hcounted⟩

end StepFi.LiquidityPool

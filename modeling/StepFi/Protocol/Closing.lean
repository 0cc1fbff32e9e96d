import StepFi.Protocol.Escrow

/-!
# Closing a loan

A loan is closed by the payment of its whole balance or, once overdue, by its
default. Either way the call reverts when the reputation contract refuses the
update of the borrower's score. `repayment_succeeds_iff` and
`markDefaulted_succeeds_iff` say that nothing else makes it revert.
-/

namespace StepFi.Protocol

open Lib CreditLine

variable {d : Deployment} {env : Env} {s s' : State} {loan : Loan} {p : Storage} {w w' : World}
variable {id : Nat} {amount : Int}

/-- All addresses are set, and the credit line may update scores. -/
@[mk_iff] structure Configured (d : Deployment) (s : State) : Prop where
  liquidityPool : s.line.liquidityPool = some d.pool
  token : s.line.token = some d.token
  reputationContract : s.line.reputationContract = some d.reputation
  poolToken : s.world.pool.token = some d.token
  creditline : s.world.pool.creditline = some d.creditLine
  updater : s.world.reputation.updaters d.creditLine = true

instance (d : Deployment) (s : State) : Decidable (Configured d s) :=
  decidable_of_iff' _ (configured_iff d s)

/-! ## The score update -/

/-- A reward has to fit under the highest score. -/
theorem reward_succeeds_iff {borrower : Address}
    (hrep : p.reputationContract = some d.reputation) (hb : w.reputation.Bounded)
    (hupdater : w.reputation.updaters d.creditLine = true) :
    (∃ w', rewardRepayment (clients d) env p borrower loan w = .ok w') ↔
      Reputation.getScore w.reputation borrower + scoreIncrease env.timestamp loan
        ≤ Reputation.maxScore := by
  constructor
  · rintro ⟨w', h⟩
    rcases rewardRepayment_ok.mp h with ⟨hnone, -⟩ | ⟨_, -, h⟩
    · simp [hrep] at hnone
    · obtain ⟨-, q, hq, -⟩ := callReputation_ok.mp h
      exact (Reputation.raise_ok.mp hq).2.2.2.1
  · intro hroom
    have hraise : Reputation.increaseScore (env.callFrom d.creditLine []) d.creditLine borrower
        (scoreIncrease env.timestamp loan) w.reputation = .ok _ :=
      Reputation.raise_ok.mpr ⟨env.callFrom_auths _ _, hupdater, hb.unlocked, hroom, rfl⟩
    exact ⟨_, rewardRepayment_ok.mpr
      (.inr ⟨d.reputation, hrep, callReputation_ok.mpr ⟨rfl, _, hraise, rfl⟩⟩)⟩

/-- A penalty has to be covered by the score. -/
theorem penalty_succeeds_iff (env : Env) (loan : Loan)
    (hrep : p.reputationContract = some d.reputation) (hb : w.reputation.Bounded)
    (hupdater : w.reputation.updaters d.creditLine = true) :
    (∃ w', penalizeDefault (clients d) env p loan w = .ok w') ↔
      calculateDefaultPenalty (clients d) p w loan
        ≤ Reputation.getScore w.reputation loan.borrower := by
  have hlower : ∀ q, Reputation.decreaseScore (env.callFrom d.creditLine []) d.creditLine
      loan.borrower (calculateDefaultPenalty (clients d) p w loan) w.reputation = .ok q ↔ _ :=
    fun q => Reputation.lower_ok (hb.score_lt loan.borrower)
  constructor
  · rintro ⟨w', h⟩
    rcases penalizeDefault_ok.mp h with ⟨hnone, -⟩ | ⟨_, -, h⟩
    · simp [hrep] at hnone
    · obtain ⟨-, q, hq, -⟩ := callReputation_ok.mp h
      exact ((hlower q).mp hq).2.2.2.1
  · intro hcovered
    have hdecrease := (hlower _).mpr
      ⟨env.callFrom_auths _ _, hupdater, hb.unlocked, hcovered, rfl⟩
    exact ⟨_, penalizeDefault_ok.mpr
      (.inr ⟨d.reputation, hrep, callReputation_ok.mpr ⟨rfl, _, hdecrease, rfl⟩⟩)⟩

/-! ## Repayment -/

/-- The borrower is able and willing to pay `amount` on an active loan, of at
most its balance, and no sum on the way overflows. -/
@[mk_iff] structure Payment (d : Deployment) (s : State) (env : Env) (id : Nat) (loan : Loan)
    (amount : Int) : Prop where
  stored : s.line.book.loan id = some loan
  active : loan.status = .active
  auth : env.auths loan.borrower = true
  covers : env.Covers d.creditLine ⟨d.token, loan.borrower, d.creditLine, amount⟩
  funded : amount ≤ s.world.token.balance loan.borrower
  pos : 0 < amount
  accrual : AccrualFits env.timestamp loan
  le : amount ≤ (loan.accrued env.timestamp).remainingBalance
  debt_fits : I128.Fits (s.line.userActiveDebt loan.borrower + lateFee env.timestamp loan)
  share_fits : I128.Fits (amount * LiquidityPool.lpFeeBps)
  liquidity_fits : I128.Fits (s.world.pool.totalLiquidity + amount)

instance (d : Deployment) (s : State) (env : Env) (id : Nat) (loan : Loan) (amount : Int) :
    Decidable (Payment d s env id loan amount) :=
  decidable_of_iff' _ (payment_iff d s env id loan amount)

/-- The payment leaves something to pay, or the score has room for the reward. -/
def Accepted (s : State) (now : Nat) (loan : Loan) (amount : Int) : Prop :=
  amount < (loan.accrued now).remainingBalance ∨
    Reputation.getScore s.world.reputation loan.borrower + scoreIncrease now loan
      ≤ Reputation.maxScore

instance (s : State) (now : Nat) (loan : Loan) (amount : Int) :
    Decidable (Accepted s now loan amount) := inferInstanceAs (Decidable (_ ∨ _))

/-- A payment reaches the pool, and costs the credit line nothing. -/
theorem payment_received {borrower : Address} {principal interest : Int} (hw : w.Sound d)
    (hout : borrower ∉ d.contracts) (htoken : w.pool.token = some d.token)
    (hcl : w.pool.creditline = some d.creditLine)
    (hcover : env.Covers d.creditLine ⟨d.token, borrower, d.creditLine, amount⟩)
    (hpos : 0 < amount) (hfunded : amount ≤ w.token.balance borrower)
    (hq : 0 ≤ principal) (hj : 0 ≤ interest) (hsum : principal + interest = amount)
    (hshare : I128.Fits (amount * LiquidityPool.lpFeeBps))
    (hliquidity : I128.Fits (w.pool.totalLiquidity + amount)) :
    ∃ w₁ w₂, (clients d).transfer env d.token borrower d.creditLine amount w = .ok w₁ ∧
      (clients d).receiveRepayment
        (env.callFrom d.creditLine [⟨d.token, d.creditLine, d.pool, amount⟩]) d.pool d.creditLine
        principal interest w₁ = .ok w₂ ∧
      w.token.balance d.creditLine ≤ w₂.token.balance d.creditLine ∧
      w₂.reputation = w.reputation := by
  subst hsum
  have hpaid := transfer_ok.mpr ⟨rfl, hcover, Int.le_of_lt hpos, hfunded, rfl⟩
  have hw₁ := hw.transfer hpaid
  have hheld := congrArg Funds.escrow (hold_funds hout hpaid)
  simp only [World.funds, Funds.hold] at hheld
  have hsolvent : 0 ≤ w.token.balance d.creditLine := hw.pool.safe.solvent d.creditLine
  have hlocked : 0 ≤ w.pool.lockedLiquidity := hw.pool.accounts.locked_nonneg
  have hle : w.pool.lockedLiquidity ≤ w.pool.totalLiquidity := hw.pool.accounts.locked_le
  have htotal : I128.Fits w.pool.totalLiquidity := hw.pool.safe.fits
  obtain ⟨hlp, hlp'⟩ := LiquidityPool.lpShare_le hj
  -- Every amount the pool computes lies between zero and one that fits.
  have hsum : I128.Fits (principal + interest) :=
    I128.fits_of_le hshare (Int.le_of_lt hpos)
      (show principal + interest ≤ (principal + interest) * 8500 by omega)
  have hmul : I128.Fits (interest * LiquidityPool.lpFeeBps) :=
    I128.fits_of_le hshare (show 0 ≤ interest * 8500 by omega)
      (show interest * 8500 ≤ (principal + interest) * 8500 by omega)
  have hgrown : I128.Fits (w.pool.totalLiquidity + LiquidityPool.lpShare interest) :=
    I128.fits_of_le hliquidity (by omega) (by omega)
  have hunlock : I128.Fits (w.pool.lockedLiquidity - principal) := by
    unfold I128.Fits at *
    omega
  obtain ⟨q, hreceive⟩ := LiquidityPool.receiveRepayment_succeeds
    (s := ⟨w.pool, w.token.move borrower d.creditLine (principal + interest)⟩)
    (env.callFrom_auths d.creditLine [⟨d.token, d.creditLine, d.pool, principal + interest⟩])
    hcl hw.pool.safe.unlocked htoken (env.callFrom_covers ..) hq hj hpos hsum hunlock
    (show _ ≤ (w.token.move borrower d.creditLine (principal + interest)).balance d.creditLine by
      omega)
    (hw₁.pool.safe.solvent d.pool) d.creditLine_ne_pool hmul hgrown
  have hreceived : (clients d).receiveRepayment
      (env.callFrom d.creditLine [⟨d.token, d.creditLine, d.pool, principal + interest⟩]) d.pool
      d.creditLine principal interest
      { w with token := w.token.move borrower d.creditLine (principal + interest) }
        = .ok { w with pool := q.pool, token := q.token } :=
    callPool_ok.mpr ⟨rfl, q, hreceive, rfl⟩
  -- The credit line passes on what came in, and may be a recipient of the fees.
  have hafter := congrArg Funds.escrow (received_funds hw₁ hreceived)
  have hfees := fees_nonneg (a := d.creditLine) (q := w.pool) hj
  simp only [World.funds, Funds.repay, Funds.release, Funds.stray] at hafter
  have hkept : w.token.balance d.creditLine ≤ q.token.balance d.creditLine := by omega
  exact ⟨_, _, hpaid, hreceived, hkept, rfl⟩

/-- The guarantee a closed loan's borrower gets back. -/
theorem refund_paid (env : Env) (borrower : Address) {guarantee : Int} (h0 : 0 ≤ guarantee)
    (hheld : guarantee ≤ w.token.balance d.creditLine) :
    ∃ w', (clients d).transfer env d.token d.creditLine borrower guarantee w = .ok w' ∧
      w'.reputation = w.reputation :=
  ⟨_, transfer_ok.mpr ⟨rfl, env.covers_self .., h0, hheld, rfl⟩, rfl⟩

theorem repayFlow_iff {schedule : List RepaymentInstallment}
    (h : Reachable Deployed (Step d) s) (hc : Configured d s)
    (hp : Payment d s env id loan amount)
    (hlast : lastDueDate { loan with repaymentSchedule := schedule } = lastDueDate loan) :
    (∃ w', RepayFlow (clients d) env s.line loan amount schedule s.world w') ↔
      Accepted s env.timestamp loan amount := by
  have hi := invariant_of_reachable h
  have hs := (hi.book.loans id loan hp.stored).accrued hp.active hp.accrual
  have halloc := allocate_spec hs (Int.le_of_lt hp.pos) hp.le
  obtain ⟨hj, hsum⟩ := halloc.interestFeeLate
  obtain ⟨w₁, w₂, h₁, h₂, hkept, hscores⟩ := payment_received hi.world
    (hi.outsiders id loan hp.stored) hc.poolToken hc.creditline hp.covers hp.pos hp.funded
    halloc.principal.1 hj hsum hp.share_fits hp.liquidity_fits
  have hreward : ∀ w₃, w₃.reputation = w₂.reputation →
      ((∃ w', rewardRepayment (clients d) env s.line loan.borrower
        ((loan.accrued env.timestamp).repaid amount schedule) w₃ = .ok w') ↔
      Reputation.getScore s.world.reputation loan.borrower + scoreIncrease env.timestamp loan
        ≤ Reputation.maxScore) := by
    intro w₃ hw₃
    have hsame : w₃.reputation = s.world.reputation := hw₃.trans hscores
    have hdue : scoreIncrease env.timestamp ((loan.accrued env.timestamp).repaid amount schedule)
        = scoreIncrease env.timestamp loan := congrArg (if env.timestamp < · then 15 else 10) hlast
    rw [reward_succeeds_iff hc.reputationContract (hsame ▸ hi.world.scores) (hsame ▸ hc.updater),
      hsame, hdue]
  constructor
  · rintro ⟨w', token, pool, v₁, v₂, htoken, hpool, hv₁, hv₂, hclose⟩
    obtain rfl := Option.some.inj (hc.token.symm.trans htoken)
    obtain rfl := Option.some.inj (hc.liquidityPool.symm.trans hpool)
    -- Both runs of the payment are the same: only the reward decides.
    obtain rfl := Except.ok.inj (h₁.symm.trans hv₁)
    obtain rfl := Except.ok.inj (h₂.symm.trans hv₂)
    split at hclose
    · obtain ⟨w₃, hrefund, hrewarded⟩ := hclose
      exact .inr ((hreward w₃ (transfer_reputation hrefund)).mp ⟨w', hrewarded⟩)
    · rename_i hrest
      exact .inl (lt_of_le_of_ne hp.le (Ne.symm hrest))
  · intro haccepted
    by_cases hfull : (loan.accrued env.timestamp).remainingBalance = amount
    · have hroom := haccepted.resolve_left (by omega)
      have hguarantee := (hi.book.loans id loan hp.stored).guarantee_pos
      -- The refund is always there, as the guarantee is still held.
      obtain ⟨w₃, hrefund, hw₃⟩ := refund_paid env loan.borrower (Int.le_of_lt hguarantee)
        (Int.le_trans (guarantee_held h hp.stored (.inr hp.active)) hkept)
      obtain ⟨w', hrewarded⟩ := (hreward w₃ hw₃).mpr hroom
      refine ⟨w', d.token, d.pool, w₁, w₂, hc.token, hc.liquidityPool, h₁, h₂, ?_⟩
      rw [if_pos hfull]
      exact ⟨w₃, hrefund, hrewarded⟩
    · refine ⟨w₂, d.token, d.pool, w₁, w₂, hc.token, hc.liquidityPool, h₁, h₂, ?_⟩
      rw [if_neg hfull]

/-- Only the schedule tells the two repayment paths apart. -/
theorem settle_succeeds_iff {check : Loan → Except Failure Unit}
    {mark : List RepaymentInstallment → List RepaymentInstallment}
    (h : Reachable Deployed (Step d) s) (hc : Configured d s)
    (hp : Payment d s env id loan amount) (hcheck : check loan = .ok ())
    (hlast : lastDueDate { loan with repaymentSchedule := mark loan.repaymentSchedule }
      = lastDueDate loan) :
    (∃ r s', settle (clients d) env loan.borrower id amount check mark s = .ok (r, s')) ↔
      Accepted s env.timestamp loan amount := by
  have hi := invariant_of_reachable h
  rw [← repayFlow_iff h hc hp hlast]
  constructor
  · rintro ⟨r, s', hs'⟩
    obtain ⟨-, stored, hstored, -, -, -, -, -, -, -, -, -, hflow, -⟩ := (settle_ok hi.book).mp hs'
    obtain rfl := Option.some.inj (hp.stored.symm.trans hstored)
    exact ⟨s'.world, hflow⟩
  · rintro ⟨w', hflow⟩
    have hdebt : loan.remainingBalance ≤ s.line.userActiveDebt loan.borrower :=
      hi.book.remaining_le_debt hp.stored hp.active
    have hle : amount ≤ loan.remainingBalance + lateFee env.timestamp loan := hp.le
    have hpos := hp.pos
    have hleft : I128.Fits
        (s.line.userActiveDebt loan.borrower + lateFee env.timestamp loan - amount) :=
      I128.fits_of_le hp.debt_fits (by omega) (by omega)
    exact ⟨_, ⟨_, w'⟩, (settle_ok hi.book).mpr ⟨hp.auth, loan, hp.stored, rfl, hp.active, hcheck,
      hp.accrual, fun _ => hp.debt_fits, hp.pos, hp.le, hi.unlocked, hleft, hflow, rfl, rfl⟩⟩

/-- The borrower of an active loan, paying at most its balance, succeeds by
either path exactly when the loan stays open or the score has room for the
reward. -/
theorem repayment_succeeds_iff (h : Reachable Deployed (Step d) s) (hc : Configured d s)
    (hp : Payment d s env id loan amount) :
    ((∃ r s', repayLoan (clients d) env loan.borrower id amount s = .ok (r, s')) ↔
      Accepted s env.timestamp loan amount) ∧
    ∀ index installment, loan.repaymentSchedule[index]? = some installment →
      installment.paid = false →
      ((∃ r s', repayInstallment (clients d) env loan.borrower id index amount s = .ok (r, s')) ↔
        Accepted s env.timestamp loan amount) := by
  refine ⟨settle_succeeds_iff h hc hp rfl rfl, fun index installment hindex hpaid => ?_⟩
  have hcheck : checkInstallment index loan = .ok () := by
    simp only [checkInstallment, bind_ok, demand_ok, ensure_ok]
    exact ⟨installment, hindex, hpaid⟩
  exact settle_succeeds_iff h hc hp hcheck
    (lastDueDate_reschedule (markInstallment_dueDates env.timestamp index _))

def payer : Env := Env.signedBy [21] 200

/-- A loan of `1000` paid in full: the score rises from `80` to `95`. -/
theorem repayment_succeeds_iff_sample : ∃ (s s' : State) (r : Int),
    repayLoan (clients .sample) payer 21 1 1070 s = .ok (r, s') := by
  have hrun : (replay (take .sample) sampleStart (configure ++ [openLoan 21])).toOption.map
      (fun r => (decide (Configured .sample r.2), (r.2.line.book.loan 1).any fun loan =>
        decide (loan.borrower = 21 ∧ Payment .sample r.2 payer 1 loan 1070 ∧
          Accepted r.2 payer.timestamp loan 1070))) = some (true, true) := by decide +kernel
  obtain ⟨tr, s, hr, hobs⟩ := replay_observed hrun
  obtain ⟨hconfigured, hpayment⟩ := Prod.mk.injEq .. ▸ hobs
  obtain ⟨loan, -, hpayment⟩ := (Option.any_eq_true _ _).mp hpayment
  obtain ⟨hborrower, hpayment, haccepted⟩ := of_decide_eq_true hpayment
  have hreach := (run_of_replay (by decide) hr).reachable sampleStart_deployed
  obtain ⟨r, s', hpaid⟩ := (repayment_succeeds_iff hreach (of_decide_eq_true hconfigured)
    hpayment).1.mpr haccepted
  exact ⟨s, s', r, hborrower ▸ hpaid⟩

/-- The borrower pays a first loan in full and reaches a score of `95`; the
payment of its second loan in full is refused. -/
theorem full_repayment_refused : ¬∀ (s : State) (env : Env) (id : Nat) (loan : Loan) (amount : Int),
    Reachable Deployed (Step .sample) s → Configured .sample s →
    Payment .sample s env id loan amount →
    ∃ r s', repayLoan (clients .sample) env loan.borrower id amount s = .ok (r, s') := by
  intro hall
  have hrun : (replay (take .sample) sampleStart
      (configure ++ [openLoan 21, repay 21 1 1070, openLoan 21])).toOption.map
      (fun r => (decide (Configured .sample r.2), (r.2.line.book.loan 2).any fun loan =>
        decide (Payment .sample r.2 payer 2 loan 1050) &&
          (repayLoan (clients .sample) payer loan.borrower 2 1050 r.2).toOption.isNone))
        = some (true, true) := by decide +kernel
  obtain ⟨tr, s, hr, hobs⟩ := replay_observed hrun
  obtain ⟨hconfigured, hrefused⟩ := Prod.mk.injEq .. ▸ hobs
  obtain ⟨loan, -, hrefused⟩ := (Option.any_eq_true _ _).mp hrefused
  obtain ⟨hpayment, hrefused⟩ := Bool.and_eq_true_iff.mp hrefused
  have hreach := (run_of_replay (by decide) hr).reachable sampleStart_deployed
  obtain ⟨r, s', hpaid⟩ := hall s payer 2 loan 1050 hreach (of_decide_eq_true hconfigured)
    (of_decide_eq_true hpayment)
  simp [hpaid, Except.toOption] at hrefused

/-! ## Default -/

/-- An active loan is past its last due date and the grace period, neither
contract is paused, and no sum on the way to its default overflows. -/
@[mk_iff] structure Overdue (d : Deployment) (s : State) (now id : Nat) (loan : Loan) : Prop where
  stored : s.line.book.loan id = some loan
  active : loan.status = .active
  scheduled : loan.repaymentSchedule ≠ []
  past : lastDueDate loan + (getProtocolParameters (clients d) s.line s.world).gracePeriodSeconds
    < now
  unpaused : s.line.paused = false
  poolUnpaused : s.world.pool.paused = false
  debt_fits : I128.Fits (s.line.userActiveDebt loan.borrower)
  liquidity_fits : I128.Fits (s.world.pool.totalLiquidity + loan.guaranteeAmount)

instance (d : Deployment) (s : State) (now id : Nat) (loan : Loan) :
    Decidable (Overdue d s now id loan) := decidable_of_iff' _ (overdue_iff d s now id loan)

/-- The guarantee has gone to the pool and the loan is closed. -/
def Forfeited (d : Deployment) (s : State) (id : Nat) (loan : Loan) (s' : State) : Prop :=
  s'.world.token = s.world.token.move d.creditLine d.pool loan.guaranteeAmount ∧
    s'.line.book.loan id = some { loan with status := .defaulted }

/-- The penalty depends on the parameters only. -/
theorem penalty_congr (h : w'.parameters = w.parameters) :
    calculateDefaultPenalty (clients d) p w' loan
      = calculateDefaultPenalty (clients d) p w loan := by
  cases w
  cases w'
  subst h
  rfl

/-- The pool takes the guarantee and writes off the rest. -/
theorem loss_realized (env : Env) (hw : w.Sound d) (hs : loan.Sound)
    (htoken : w.pool.token = some d.token) (hcl : w.pool.creditline = some d.creditLine)
    (hpaused : w.pool.paused = false)
    (hheld : loan.guaranteeAmount ≤ w.token.balance d.creditLine)
    (hfits : I128.Fits (w.pool.totalLiquidity + loan.guaranteeAmount)) :
    ∃ w₁ w₂, (clients d).receiveGuarantee
        (env.callFrom d.creditLine [⟨d.token, d.creditLine, d.pool, loan.guaranteeAmount⟩]) d.pool
        d.creditLine loan.guaranteeAmount w = .ok w₁ ∧
      (if 0 < principalShortfall loan then
        (clients d).absorbLoss (env.callFrom d.creditLine []) d.pool d.creditLine
          (principalShortfall loan) w₁ = .ok w₂
      else w₂ = w₁) ∧
      w₂.token = w.token.move d.creditLine d.pool loan.guaranteeAmount ∧
      w₂.reputation = w.reputation ∧ w₂.parameters = w.parameters := by
  have hpos := hs.guarantee_pos
  have hlocked : 0 ≤ w.pool.lockedLiquidity := hw.pool.accounts.locked_nonneg
  have hle : w.pool.lockedLiquidity ≤ w.pool.totalLiquidity := hw.pool.accounts.locked_le
  have fits : ∀ x : Int, 0 ≤ x → x ≤ w.pool.totalLiquidity + loan.guaranteeAmount →
      I128.Fits x := fun x h0 hx => I128.fits_of_le hfits h0 hx
  have hlocked₁ : I128.Fits (w.pool.lockedLiquidity
      - min loan.guaranteeAmount w.pool.lockedLiquidity) := fits _ (by omega) (by omega)
  have htotal₁ : I128.Fits (w.pool.totalLiquidity
      + min loan.guaranteeAmount w.pool.lockedLiquidity) := fits _ (by omega) (by omega)
  let q := LiquidityPool.recovered loan.guaranteeAmount w.pool
  let t := w.token.move d.creditLine d.pool loan.guaranteeAmount
  have hguarantee : LiquidityPool.receiveGuarantee d
      (env.callFrom d.creditLine [⟨d.token, d.creditLine, d.pool, loan.guaranteeAmount⟩])
      d.creditLine loan.guaranteeAmount ⟨w.pool, w.token⟩ = .ok ⟨q, t⟩ :=
    LiquidityPool.receiveGuarantee_ok.mpr ⟨env.callFrom_auths .., hpaused, hcl, hpos,
      hw.pool.safe.unlocked, hlocked₁, htotal₁, htoken, env.callFrom_covers .., hheld, rfl⟩
  have hrecovered : (clients d).receiveGuarantee
      (env.callFrom d.creditLine [⟨d.token, d.creditLine, d.pool, loan.guaranteeAmount⟩]) d.pool
      d.creditLine loan.guaranteeAmount w = .ok { w with pool := q, token := t } :=
    callPool_ok.mpr ⟨rfl, _, hguarantee, rfl⟩
  by_cases hshort : 0 < principalShortfall loan
  · have hlocked' : q.lockedLiquidity
        = w.pool.lockedLiquidity - min loan.guaranteeAmount w.pool.lockedLiquidity := rfl
    have htotal' : q.totalLiquidity
        = w.pool.totalLiquidity + min loan.guaranteeAmount w.pool.lockedLiquidity := rfl
    have hlocked₂ : I128.Fits (q.lockedLiquidity
        - min (principalShortfall loan) q.lockedLiquidity) := fits _ (by omega) (by omega)
    have htotal₂ : I128.Fits (q.totalLiquidity
        - min (principalShortfall loan) q.totalLiquidity) := fits _ (by omega) (by omega)
    have hloss : LiquidityPool.absorbLoss (env.callFrom d.creditLine []) d.creditLine
        (principalShortfall loan) ⟨q, t⟩
          = .ok ⟨LiquidityPool.absorbed (principalShortfall loan) q, t⟩ :=
      LiquidityPool.absorbLoss_ok.mpr ⟨env.callFrom_auths .., hpaused, hcl, hshort,
        hw.pool.safe.unlocked, hlocked₂, htotal₂, rfl⟩
    refine ⟨_, { w with pool := LiquidityPool.absorbed (principalShortfall loan) q, token := t },
      hrecovered, ?_, rfl, rfl, rfl⟩
    rw [if_pos hshort]
    exact callPool_ok.mpr ⟨rfl, _, hloss, rfl⟩
  · refine ⟨_, { w with pool := q, token := t }, hrecovered, ?_, rfl, rfl, rfl⟩
    rw [if_neg hshort]

/-- The grace period of an overdue loan has ended. -/
theorem Overdue.graceEnded {now : Nat} (ho : Overdue d s now id loan) (hnow : now < 2 ^ 64) :
    ∃ ends, graceEndsAt (clients d) now s.line s.world loan = .ok ends ∧ ends < now := by
  have hlast := List.getLast?_eq_some_getLast ho.scheduled
  have hdue : lastDueDate loan = (loan.repaymentSchedule.getLast ho.scheduled).dueDate := by
    simp [lastDueDate, hlast]
  have hpast := ho.past
  rw [hdue] at hpast
  refine ⟨_, ?_, hpast⟩
  simp only [graceEndsAt, bind_ok, demand_ok, ensure_ok, addU64_ok, exists_const]
  exact ⟨_, hlast, by omega, by omega, rfl⟩

/-- An overdue loan can be defaulted exactly when its borrower's score covers the
penalty. -/
theorem markDefaulted_succeeds_iff (h : Reachable Deployed (Step d) s) (hc : Configured d s)
    (ho : Overdue d s env.timestamp id loan) :
    (∃ s', markDefaulted (clients d) env id s = .ok s' ∧ Forfeited d s id loan s') ↔
      calculateDefaultPenalty (clients d) s.line s.world loan
        ≤ Reputation.getScore s.world.reputation loan.borrower := by
  have hi := invariant_of_reachable h
  obtain ⟨w₁, w₂, h₁, h₂, htoken, hscores, hparameters⟩ := loss_realized env hi.world
    (hi.book.loans id loan ho.stored) hc.poolToken hc.creditline ho.poolUnpaused
    (guarantee_held h ho.stored (.inr ho.active)) ho.liquidity_fits
  have hpenalty := penalty_succeeds_iff env loan hc.reputationContract
    (hscores ▸ hi.world.scores) (hscores ▸ hc.updater)
  rw [penalty_congr hparameters, hscores] at hpenalty
  rw [← hpenalty]
  constructor
  · rintro ⟨s', hs', -⟩
    obtain ⟨-, stored, hstored, -, -, -, -, hflow, -⟩ := (markDefaulted_ok hi.book).mp hs'
    obtain rfl := Option.some.inj (ho.stored.symm.trans hstored)
    obtain ⟨token, pool, v₁, v₂, htoken', hpool, hv₁, hv₂, hpenalized⟩ := hflow
    obtain rfl := Option.some.inj (hc.token.symm.trans htoken')
    obtain rfl := Option.some.inj (hc.liquidityPool.symm.trans hpool)
    obtain rfl := Except.ok.inj (h₁.symm.trans hv₁)
    -- The pool's part is the same in both runs: only the penalty decides.
    have hsame : v₂ = w₂ := by
      split at hv₂
      · rw [if_pos ‹_›] at h₂
        exact Except.ok.inj (hv₂.symm.trans h₂)
      · rw [if_neg ‹_›] at h₂
        exact hv₂.trans h₂.symm
    exact ⟨s'.world, hsame ▸ hpenalized⟩
  · rintro ⟨w', hpenalized⟩
    have hdebt : loan.remainingBalance ≤ s.line.userActiveDebt loan.borrower :=
      hi.book.remaining_le_debt ho.stored ho.active
    have hnonneg := (hi.book.loans id loan ho.stored).remaining_nonneg
    have hleft : I128.Fits (s.line.userActiveDebt loan.borrower - loan.remainingBalance) :=
      I128.fits_of_le ho.debt_fits (by omega) (by omega)
    have hclosed : (setLoan { loan with status := .defaulted } (setUserActiveDebt loan.borrower
        (s.line.userActiveDebt loan.borrower - loan.remainingBalance) s.line)).book.loan id
          = some { loan with status := .defaulted } := by
      rw [book_setLoan, ← hi.book.keyed id loan ho.stored]
      exact Function.update_self ..
    exact ⟨⟨_, w'⟩, (markDefaulted_ok hi.book).mpr ⟨ho.unpaused, loan, ho.stored, ho.active,
      ho.graceEnded env.timestamp_lt, hi.unlocked, hleft,
      ⟨d.token, d.pool, w₁, w₂, hc.token, hc.liquidityPool, h₁, h₂, hpenalized⟩, rfl⟩,
      (penalize_funds hpenalized).2.trans htoken, hclosed⟩

def marker : Env := Env.signedBy [30] 2001

/-- A first default, at a score of `80`. -/
theorem markDefaulted_succeeds_iff_sample : ∃ (s s' : State) (loan : Loan),
    loan.guaranteeAmount = 200 ∧ markDefaulted (clients .sample) marker 1 s = .ok s' ∧
      Forfeited .sample s 1 loan s' := by
  have hrun : (replay (take .sample) sampleStart (configure ++ [openLoan 21])).toOption.map
      (fun r => (decide (Configured .sample r.2), (r.2.line.book.loan 1).any fun loan =>
        decide (loan.guaranteeAmount = 200 ∧ Overdue .sample r.2 marker.timestamp 1 loan ∧
          calculateDefaultPenalty (clients .sample) r.2.line r.2.world loan
            ≤ Reputation.getScore r.2.world.reputation loan.borrower)))
        = some (true, true) := by decide +kernel
  obtain ⟨tr, s, hr, hobs⟩ := replay_observed hrun
  obtain ⟨hconfigured, hoverdue⟩ := Prod.mk.injEq .. ▸ hobs
  obtain ⟨loan, -, hoverdue⟩ := (Option.any_eq_true _ _).mp hoverdue
  obtain ⟨hguarantee, hoverdue, hcovered⟩ := of_decide_eq_true hoverdue
  have hreach := (run_of_replay (by decide) hr).reachable sampleStart_deployed
  obtain ⟨s', hmarked, hforfeited⟩ : ∃ s', markDefaulted (clients .sample) marker 1 s = .ok s' ∧
      Forfeited .sample s 1 loan s' :=
    (markDefaulted_succeeds_iff hreach (of_decide_eq_true hconfigured) hoverdue).mpr hcovered
  exact ⟨s, s', loan, hguarantee, hmarked, hforfeited⟩

/-- Two defaults leave the borrower of three loans a score of `10`, below the
penalty of the third. -/
theorem third_default_refused : ¬∀ (s : State) (env : Env) (id : Nat) (loan : Loan),
    Reachable Deployed (Step .sample) s → Configured .sample s →
    Overdue .sample s env.timestamp id loan →
    ∃ s', markDefaulted (clients .sample) env id s = .ok s' ∧ Forfeited .sample s id loan s' := by
  intro hall
  have hrun : (replay (take .sample) sampleStart (configure ++ [openLoan 21, openLoan 21,
      openLoan 21, .by 11 150 (.reputation (.setScore 11 21 50)), default 1,
      default 2])).toOption.map
      (fun r => (decide (Configured .sample r.2), (r.2.line.book.loan 3).any fun loan =>
        decide (Overdue .sample r.2 marker.timestamp 3 loan) &&
          (markDefaulted (clients .sample) marker 3 r.2).toOption.isNone))
        = some (true, true) := by decide +kernel
  obtain ⟨tr, s, hr, hobs⟩ := replay_observed hrun
  obtain ⟨hconfigured, hrefused⟩ := Prod.mk.injEq .. ▸ hobs
  obtain ⟨loan, -, hrefused⟩ := (Option.any_eq_true _ _).mp hrefused
  obtain ⟨hoverdue, hrefused⟩ := Bool.and_eq_true_iff.mp hrefused
  have hreach := (run_of_replay (by decide) hr).reachable sampleStart_deployed
  obtain ⟨s', hmarked, -⟩ := hall s marker 3 loan hreach (of_decide_eq_true hconfigured)
    (of_decide_eq_true hoverdue)
  simp [hmarked, Except.toOption] at hrefused

end StepFi.Protocol

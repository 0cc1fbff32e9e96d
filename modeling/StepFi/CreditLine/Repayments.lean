import StepFi.CreditLine.Accrual

/-!
# The two ways to repay

`repay_loan` and `repay_installment` are two functions with a body each, and
`settle` is the body they share in this model. Here both are written out as the
contract has them, line by line, and shown to be what the model takes them for
(`repayLoan_eq`, `repayInstallment_eq`). It follows that they do the same but for
the installment marked paid (`repayments_agree`).
-/

namespace StepFi.CreditLine

open Lib

namespace WrittenOut

variable {W : Type} (c : Clients W)

def repayLoan (env : Env) (borrower : Address) (loanId : Nat) (amount : Int) (s : State W) :
    Except Failure (Int × State W) := do
  requireAuth env borrower
  let loan ← readLoan s.line loanId
  ensure (loan.borrower = borrower) (.creditLine .unauthorizedRepayer)
  ensure (loan.status = .active) (.creditLine .loanNotActive)
  let ⟨accruedFee, loan⟩ ← accrueLateFeesInternal env.timestamp loan
  let line ← (if 0 < accruedFee then increaseUserActiveDebt borrower accruedFee s.line
    else .ok s.line)
  ensure (¬(amount ≤ 0 ∨ loan.remainingBalance < amount)) (.creditLine .invalidRepaymentAmount)
  let line ← enterNonReentrant line
  let ⟨allocation, loan⟩ ← applyWaterfall loan amount
  let newBalance := loan.remainingBalance
  let isFullyRepaid := decide (newBalance = 0)
  let loan := if isFullyRepaid then { loan with status := .paid } else loan
  let line ← decreaseUserActiveDebt borrower amount line
  let line ← writeLoan loan line
  let lpAddress ← demand line.liquidityPool (.creditLine .insufficientLiquidity)
  let tokenAddress ← demand line.token (.creditLine .tokenNotConfigured)
  let w ← c.transfer env tokenAddress borrower c.self amount s.world
  let interestFee ← addI128 allocation.interestPaid allocation.serviceFeePaid
  let interestFeeLate ← addI128 interestFee allocation.lateFeePaid
  -- the pool may pull the amount: `authorize_token_transfer`
  let w ← c.receiveRepayment (env.callFrom c.self [⟨tokenAddress, c.self, lpAddress, amount⟩])
    lpAddress c.self allocation.principalPaid interestFeeLate w
  let w ← (if isFullyRepaid then
      c.transfer env tokenAddress c.self borrower loan.guaranteeAmount w
    else .ok w)
  let w ← (if isFullyRepaid then
      match line.reputationContract with
      | some reputation =>
        let dueDate := (loan.repaymentSchedule.getLast?.map (·.dueDate)).getD 0
        handleReputationIncrease c env reputation borrower dueDate w
      | none => .ok w
    else .ok w)
  return (newBalance, ⟨exitNonReentrant line, w⟩)

def repayInstallment (env : Env) (borrower : Address) (loanId installmentIndex : Nat)
    (amount : Int) (s : State W) : Except Failure (Int × State W) := do
  requireAuth env borrower
  let loan ← readLoan s.line loanId
  ensure (loan.borrower = borrower) (.creditLine .unauthorizedRepayer)
  ensure (loan.status = .active) (.creditLine .loanNotActive)
  ensure (installmentIndex < loan.repaymentSchedule.length) (.creditLine .invalidInstallmentIndex)
  let installment ←
    demand loan.repaymentSchedule[installmentIndex]? (.creditLine .invalidInstallmentIndex)
  ensure (installment.paid = false) (.creditLine .installmentAlreadyPaid)
  let ⟨accruedFee, loan⟩ ← accrueLateFeesInternal env.timestamp loan
  let line ← (if 0 < accruedFee then increaseUserActiveDebt borrower accruedFee s.line
    else .ok s.line)
  ensure (¬(amount ≤ 0 ∨ loan.remainingBalance < amount)) (.creditLine .invalidRepaymentAmount)
  let line ← enterNonReentrant line
  let now := env.timestamp
  let ⟨allocation, loan⟩ ← applyWaterfall loan amount
  let newBalance := loan.remainingBalance
  let installment := { installment with paid := true, paidAt := now }
  let loan := { loan with
    repaymentSchedule := loan.repaymentSchedule.set installmentIndex installment }
  let isFullyRepaid := decide (newBalance = 0)
  let loan := if isFullyRepaid then { loan with status := .paid } else loan
  let line ← decreaseUserActiveDebt borrower amount line
  let line ← writeLoan loan line
  let lpAddress ← demand line.liquidityPool (.creditLine .insufficientLiquidity)
  let tokenAddress ← demand line.token (.creditLine .tokenNotConfigured)
  let w ← c.transfer env tokenAddress borrower c.self amount s.world
  let interestFee ← addI128 allocation.interestPaid allocation.serviceFeePaid
  let interestFeeLate ← addI128 interestFee allocation.lateFeePaid
  let w ← c.receiveRepayment (env.callFrom c.self [⟨tokenAddress, c.self, lpAddress, amount⟩])
    lpAddress c.self allocation.principalPaid interestFeeLate w
  let w ← (if isFullyRepaid then
      c.transfer env tokenAddress c.self borrower loan.guaranteeAmount w
    else .ok w)
  let w ← (if isFullyRepaid then
      match line.reputationContract with
      | some reputation =>
        let dueDate := (loan.repaymentSchedule.getLast?.map (·.dueDate)).getD 0
        handleReputationIncrease c env reputation borrower dueDate w
      | none => .ok w
    else .ok w)
  return (newBalance, ⟨exitNonReentrant line, w⟩)

end WrittenOut

variable {W : Type} {c : Clients W} {env : Env} {s s' : State W} {borrower : Address}
variable {loanId index : Nat} {amount : Int} {loan : Loan} {installment : RepaymentInstallment}
variable {mark : List RepaymentInstallment → List RepaymentInstallment}

/-! ## The bodies and the model -/

theorem closeLoan_remaining : (closeLoan mark loan).remainingBalance = loan.remainingBalance := by
  unfold closeLoan
  split <;> rfl

theorem closeLoan_eq_if (mark : List RepaymentInstallment → List RepaymentInstallment)
    (loan : Loan) : closeLoan mark loan =
    if decide (loan.remainingBalance = 0) then
      { loan with repaymentSchedule := mark loan.repaymentSchedule, status := .paid }
    else { loan with repaymentSchedule := mark loan.repaymentSchedule } := by
  simp only [closeLoan, decide_eq_true_eq]

/-- The payments, from the pool's address on. -/
theorem payments_eq {β : Type} {p : Storage} {allocation : RepaymentAllocation} {w : W}
    {full : Bool} (hfull : full = decide (loan.remainingBalance = 0))
    (rest : W → Except Failure β) :
    (do
      let lpAddress ← demand p.liquidityPool (.creditLine .insufficientLiquidity)
      let tokenAddress ← demand p.token (.creditLine .tokenNotConfigured)
      let w ← c.transfer env tokenAddress borrower c.self amount w
      let interestFee ← addI128 allocation.interestPaid allocation.serviceFeePaid
      let interestFeeLate ← addI128 interestFee allocation.lateFeePaid
      let w ← c.receiveRepayment (env.callFrom c.self [⟨tokenAddress, c.self, lpAddress, amount⟩])
        lpAddress c.self allocation.principalPaid interestFeeLate w
      let w ← (if full then c.transfer env tokenAddress c.self borrower loan.guaranteeAmount w
        else .ok w)
      let w ← (if full then
          match p.reputationContract with
          | some reputation =>
            let dueDate := (loan.repaymentSchedule.getLast?.map (·.dueDate)).getD 0
            handleReputationIncrease c env reputation borrower dueDate w
          | none => .ok w
        else .ok w)
      rest w) = forwardRepayment c env p borrower amount allocation loan w >>= rest := by
  unfold forwardRepayment
  simp only [bind_assoc]
  refine bind_congr_ok fun lpAddress _ => ?_
  refine bind_congr_ok fun token _ => ?_
  refine bind_congr_ok fun w₁ _ => ?_
  refine bind_congr_ok fun _ _ => ?_
  refine bind_congr_ok fun _ _ => ?_
  refine bind_congr_ok fun w₂ _ => ?_
  subst hfull
  by_cases hzero : loan.remainingBalance = 0
  · simp only [hzero, decide_true, if_true, bind_assoc]
    rfl
  · simp only [hzero, decide_false, Bool.false_eq_true, if_false, ok_bind]

theorem repayLoan_eq : WrittenOut.repayLoan c env borrower loanId amount s =
    repayLoan c env borrower loanId amount s := by
  unfold WrittenOut.repayLoan repayLoan settle
  refine bind_congr_ok fun _ _ => ?_
  refine bind_congr_ok fun loan _ => ?_
  refine bind_congr_ok fun _ _ => ?_
  refine bind_congr_ok fun _ _ => ?_
  rw [ok_bind]
  refine bind_congr_ok fun accrued _ => ?_
  refine bind_congr_ok fun line _ => ?_
  have hamount : 0 < amount ∧ amount ≤ accrued.loan.remainingBalance ↔
      ¬(amount ≤ 0 ∨ accrued.loan.remainingBalance < amount) := by omega
  rw [ensure_congr hamount]
  refine bind_congr_ok fun _ _ => ?_
  refine bind_congr_ok fun line _ => ?_
  refine bind_congr_ok fun paid _ => ?_
  have hclose : (if decide (paid.loan.remainingBalance = 0) then { paid.loan with status := .paid }
      else paid.loan) = closeLoan id paid.loan :=
    (closeLoan_eq_if id paid.loan).symm
  dsimp only
  rw [hclose, closeLoan_remaining]
  refine bind_congr_ok fun line _ => ?_
  refine bind_congr_ok fun line _ => ?_
  exact payments_eq (by rw [closeLoan_remaining]) _

theorem markInstallment_eq {now : Nat} {schedule : List RepaymentInstallment}
    (h : schedule[index]? = some installment) : markInstallment now index schedule =
      schedule.set index { installment with paid := true, paidAt := now } := by
  have : Inhabited RepaymentInstallment := ⟨installment⟩
  rw [markInstallment, List.modify_eq_set, h]
  rfl

/-- The bound on the index is checked twice, with one error. -/
theorem checkInstallment_eq : (do
      ensure (index < loan.repaymentSchedule.length) (.creditLine .invalidInstallmentIndex)
      let installment ← demand loan.repaymentSchedule[index]? (.creditLine .invalidInstallmentIndex)
      ensure (installment.paid = false) (.creditLine .installmentAlreadyPaid)) =
    checkInstallment index loan := by
  unfold checkInstallment
  by_cases hlt : index < loan.repaymentSchedule.length
  · simp only [ensure, hlt, if_true, ok_bind]
  · have hnone : loan.repaymentSchedule[index]? = none := List.getElem?_eq_none (by omega)
    rw [hnone]
    simp only [ensure, hlt, if_false, demand]
    rfl

theorem repayInstallment_eq : WrittenOut.repayInstallment c env borrower loanId index amount s =
    repayInstallment c env borrower loanId index amount s := by
  unfold WrittenOut.repayInstallment repayInstallment settle
  refine bind_congr_ok fun _ _ => ?_
  refine bind_congr_ok fun loan _ => ?_
  refine bind_congr_ok fun _ _ => ?_
  refine bind_congr_ok fun _ _ => ?_
  rw [← checkInstallment_eq]
  simp only [bind_assoc]
  refine bind_congr_ok fun _ _ => ?_
  refine bind_congr_ok fun installment hinstallment => ?_
  refine bind_congr_ok fun _ _ => ?_
  refine bind_congr_ok fun accrued haccrued => ?_
  refine bind_congr_ok fun line _ => ?_
  have hamount : 0 < amount ∧ amount ≤ accrued.loan.remainingBalance ↔
      ¬(amount ≤ 0 ∨ accrued.loan.remainingBalance < amount) := by omega
  rw [ensure_congr hamount]
  refine bind_congr_ok fun _ _ => ?_
  refine bind_congr_ok fun line _ => ?_
  refine bind_congr_ok fun paid hpaid => ?_
  -- the schedule is still the one the installment was read from
  have hschedule : paid.loan.repaymentSchedule[index]? = some installment := by
    rw [(applyWaterfall_keeps hpaid).2, (accrue_keeps haccrued).2]
    exact demand_ok.mp hinstallment
  have hclose := closeLoan_eq_if (markInstallment env.timestamp index) paid.loan
  rw [markInstallment_eq hschedule] at hclose
  rw [closeLoan_remaining, hclose]
  refine bind_congr_ok fun line _ => ?_
  refine bind_congr_ok fun line _ => ?_
  refine payments_eq ?_ _
  rw [← hclose, closeLoan_remaining]

/-! ## One body, two marks -/

/-- The schedule of a stored loan rewritten. -/
def Storage.reschedule (loanId : Nat)
    (mark : List RepaymentInstallment → List RepaymentInstallment) (p : Storage) : Storage :=
  match p.loans (loanShard loanId) loanId with
  | some loan => setLoan { loan with repaymentSchedule := mark loan.repaymentSchedule } p
  | none => p

theorem readLoan_setLoan (loan : Loan) (p : Storage) :
    readLoan (setLoan loan p) loan.loanId = .ok loan := by
  rw [readLoan_ok, book_setLoan]
  exact Function.update_self ..

theorem reschedule_setLoan (loan : Loan) (p : Storage) :
    (setLoan loan p).reschedule loan.loanId mark =
      setLoan { loan with repaymentSchedule := mark loan.repaymentSchedule } p := by
  have hread : (setLoan loan p).loans (loanShard loan.loanId) loan.loanId = some loan :=
    demand_ok.mp (readLoan_setLoan loan p)
  rw [Storage.reschedule, hread]
  exact setLoan_setLoan rfl

theorem closeLoan_mark : closeLoan mark loan = { closeLoan id loan with
    repaymentSchedule := mark (closeLoan id loan).repaymentSchedule } := by
  unfold closeLoan
  split <;> rfl

/-- The payments look at the schedule for its last due date only. -/
theorem forwardRepayment_reschedule {p : Storage} {allocation : RepaymentAllocation} {w : W}
    {schedule : List RepaymentInstallment}
    (hdue : schedule.map (·.dueDate) = loan.repaymentSchedule.map (·.dueDate)) :
    forwardRepayment c env p borrower amount allocation
        { loan with repaymentSchedule := schedule } w =
      forwardRepayment c env p borrower amount allocation loan w := by
  simp only [forwardRepayment, rewardRepayment, lastDueDate_reschedule hdue]

theorem addAccruedFee_loan {fee : Int} {p p' : Storage}
    (h : addAccruedFee borrower fee p = .ok p') :
    p'.book.loan = p.book.loan := by
  unfold addAccruedFee at h
  split at h
  · obtain ⟨-, rfl⟩ := increaseUserActiveDebt_ok.mp h
    rfl
  · cases h
    rfl

/-- A repayment that marks its schedule does what one that does not mark it does,
to the error, and then marks it. -/
theorem settle_marked {check : Loan → Except Failure Unit} (hb : s.line.book.Sound)
    (hloan : s.line.book.loan loanId = some loan) (hcheck : check loan = .ok ())
    (hdue : ∀ schedule, (mark schedule).map (·.dueDate) = schedule.map (·.dueDate)) :
    settle c env borrower loanId amount check mark s =
      (settle c env borrower loanId amount (fun _ => .ok ()) id s).map fun out =>
        (out.1, { out.2 with line := out.2.line.reschedule loanId mark }) := by
  have hid : loan.loanId = loanId := hb.keyed _ _ hloan
  unfold settle
  refine bind_map fun _ => ?_
  rw [readLoan_ok.mpr hloan, ok_bind, ok_bind]
  refine bind_map fun _ => ?_
  refine bind_map fun _ => ?_
  rw [hcheck, ok_bind, ok_bind]
  refine bind_map_ok fun accrued haccrued => ?_
  refine bind_map_ok fun p hp => ?_
  refine bind_map fun _ => ?_
  refine bind_map_ok fun entered hentered => ?_
  refine bind_map_ok fun paid hpaid => ?_
  refine bind_map_ok fun q hq => ?_
  have hpaidId : (closeLoan id paid.loan).loanId = loanId := by
    rw [closeLoan_loanId, (applyWaterfall_keeps hpaid).1, (accrue_keeps haccrued).1, hid]
  have hstored : q.book.loan loanId = some loan := by
    obtain ⟨-, rfl⟩ := decreaseUserActiveDebt_ok.mp hq
    obtain ⟨-, rfl⟩ := enterNonReentrant_ok.mp hentered
    rw [← hloan, ← addAccruedFee_loan hp]
    rfl
  rw [← hpaidId] at hstored
  have hmarked : (closeLoan mark paid.loan).loanId = (closeLoan id paid.loan).loanId :=
    closeLoan_loanId.trans closeLoan_loanId.symm
  rw [writeLoan_stored hstored, writeLoan_stored (hmarked ▸ hstored), ok_bind, ok_bind]
  have hforward : ∀ w, forwardRepayment c env (setLoan (closeLoan mark paid.loan) q) borrower
      amount paid.allocation (closeLoan mark paid.loan) w =
        forwardRepayment c env (setLoan (closeLoan id paid.loan) q) borrower amount
          paid.allocation (closeLoan id paid.loan) w := by
    intro w
    rw [closeLoan_mark, forwardRepayment_reschedule (hdue _)]
    exact forwardRepayment_congr rfl
  rw [hforward]
  refine bind_map fun w => ?_
  have hline : exitNonReentrant (setLoan (closeLoan mark paid.loan) q) =
      (exitNonReentrant (setLoan (closeLoan id paid.loan) q)).reschedule loanId mark := by
    rw [← hpaidId, closeLoan_mark]
    exact (reschedule_setLoan (closeLoan id paid.loan) (exitNonReentrant q)).symm
  rw [hline, closeLoan_remaining, closeLoan_remaining]
  rfl

/-- On an installment in range and unpaid the two ways to repay fail alike and
succeed alike: with the same result and the same effect on the other contracts
(token balances, pool, scores), the same active debts and the same record of the
loan, but for the installment that is marked. -/
theorem repayments_agree (h : Reachable Deployed (Step c) s)
    (hloan : readLoan s.line loanId = .ok loan)
    (hindex : loan.repaymentSchedule[index]? = some installment)
    (hunpaid : installment.paid = false) (env : Env) (borrower : Address) (amount : Int) :
    (∀ e, WrittenOut.repayInstallment c env borrower loanId index amount s = .error e ↔
      WrittenOut.repayLoan c env borrower loanId amount s = .error e) ∧
    ∀ r s₁, WrittenOut.repayLoan c env borrower loanId amount s = .ok (r, s₁) →
      ∃ s₂ repaid marked, WrittenOut.repayInstallment c env borrower loanId index amount s =
          .ok (r, s₂) ∧
        s₂.world = s₁.world ∧ s₂.line.userActiveDebt = s₁.line.userActiveDebt ∧
        readLoan s₁.line loanId = .ok repaid ∧ readLoan s₂.line loanId = .ok marked ∧
        repaid.repaymentSchedule = loan.repaymentSchedule ∧
        marked = { repaid with
          repaymentSchedule := loan.repaymentSchedule.set index
            { installment with paid := true, paidAt := env.timestamp } } ∧
        s₂.line = setLoan marked s₁.line := by
  have hb := sound_of_reachable h
  have hcheck : checkInstallment index loan = .ok () := by
    simp only [checkInstallment, bind_ok, demand_ok, ensure_ok]
    exact ⟨installment, hindex, hunpaid⟩
  have hmarked : repayInstallment c env borrower loanId index amount s =
      (repayLoan c env borrower loanId amount s).map fun out => (out.1, { out.2 with
        line := out.2.line.reschedule loanId (markInstallment env.timestamp index) }) :=
    settle_marked hb (readLoan_ok.mp hloan) hcheck (markInstallment_dueDates env.timestamp index)
  rw [repayLoan_eq, repayInstallment_eq, hmarked]
  constructor
  · intro e
    exact map_error
  · intro r s₁ hs₁
    obtain ⟨-, old, hold, -, -, -, -, -, -, -, -, -, -, -, hline⟩ := (settle_ok hb).mp hs₁
    obtain rfl : old = loan := Option.some.inj (hold.symm.trans (readLoan_ok.mp hloan))
    obtain rfl : old.loanId = loanId := hb.keyed _ _ hold
    -- what `repay_loan` leaves of the loan, and the same with the installment marked
    let repaid := (old.accrued env.timestamp).repaid amount old.repaymentSchedule
    let marked := { repaid with
      repaymentSchedule := markInstallment env.timestamp index old.repaymentSchedule }
    have hrepaid : readLoan s₁.line old.loanId = .ok repaid := by
      rw [hline]
      exact readLoan_setLoan repaid _
    have hrest : s₁.line.reschedule old.loanId (markInstallment env.timestamp index) =
        setLoan marked s₁.line := by
      rw [Storage.reschedule, demand_ok.mp hrepaid]
      rfl
    refine ⟨_, repaid, marked, map_ok.mpr ⟨_, hs₁, rfl⟩, rfl, ?_, hrepaid, ?_, rfl, ?_, hrest⟩
    · show (s₁.line.reschedule _ _).userActiveDebt = _
      rw [hrest]
      rfl
    · show readLoan (s₁.line.reschedule _ _) _ = _
      rw [hrest]
      exact readLoan_setLoan marked _
    · show ({ repaid with repaymentSchedule := _ } : Loan) = _
      rw [markInstallment_eq hindex]

/-- Borrower `21` pays `100` of the `777` still owed, by either path. -/
theorem repayments_agree_sample : ∃ s s₁ s₂ : State Unit,
    WrittenOut.repayLoan .granting (Env.signedBy [21] 174900) 21 1 100 s = .ok (677, s₁) ∧
    WrittenOut.repayInstallment .granting (Env.signedBy [21] 174900) 21 1 0 100 s =
      .ok (677, s₂) ∧
    s₂.line.userActiveDebt = s₁.line.userActiveDebt := by
  have hrun : (replay (take .granting) sampleStart sampleLabels).toOption.map (fun r =>
      ((readLoan r.2.line 1).toOption.map (·.repaymentSchedule),
        (WrittenOut.repayLoan .granting (Env.signedBy [21] 174900) 21 1 100 r.2).toOption.map
          Prod.fst)) = some (some [⟨2000, 1070, false, 0⟩], some 677) := by decide +kernel
  obtain ⟨_, s, hreach, hs⟩ :=
    Reachable.of_replay (I := Deployed) (R := Step .granting) hrun rfl fun _ _ _ h => h
  obtain ⟨hschedule, hpaid⟩ := Prod.mk.injEq .. ▸ hs
  obtain ⟨loan, hloan, hlist⟩ := toOption_map_some.mp hschedule
  obtain ⟨⟨r, s₁⟩, hs₁, rfl⟩ := toOption_map_some.mp hpaid
  have hindex : loan.repaymentSchedule[0]? = some ⟨2000, 1070, false, 0⟩ := by
    rw [hlist]
    rfl
  obtain ⟨s₂, _, _, hs₂, -, hdebt, -⟩ := (repayments_agree hreach hloan hindex rfl
    (Env.signedBy [21] 174900) 21 100).2 _ _ hs₁
  exact ⟨s, s₁, s₂, hs₁, hs₂, hdebt⟩

end StepFi.CreditLine

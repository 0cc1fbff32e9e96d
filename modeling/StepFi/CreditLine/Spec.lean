import StepFi.CreditLine.Book

/-!
# What each credit line entry point does

For each entry point: the entry it makes in the loan book, the calls it makes on
the other contracts (`IssueFlow`, `RepayFlow` and the others), and that it keeps
the addresses. `exec_effect` collects them: every call of the contract, against
any contracts it calls, makes one valid entry in the book.
-/

namespace StepFi.CreditLine

open Lib

/-! ## Storage -/

/-- Where the ids of each borrower's loans are kept. -/
structure Index where
  count : Address → Nat
  page : Address → Nat → Option (List Nat)

def Storage.index (p : Storage) : Index where
  count := p.userLoanCount
  page := p.userLoanPage

/-- The index with one more id, at the end of its borrower's last page. -/
def Index.append (x : Index) (borrower : Address) (loanId : Nat) : Index :=
  let pageNum := (x.count borrower / pageSize) % 2 ^ 32
  let page := (x.page borrower pageNum).getD []
  let pages := Function.update (x.page borrower) pageNum (some (page ++ [loanId]))
  { count := Function.update x.count borrower (x.count borrower + 1)
    page := Function.update x.page borrower pages }

section Store

variable {p p' : Storage} {loan old : Loan} {id : Nat} {borrower : Address} {x y : Int}

@[simp] theorem readLoan_ok : readLoan p id = .ok loan ↔ p.book.loan id = some loan := by
  simp only [readLoan, demand_ok, Storage.book]

@[simp] theorem enterNonReentrant_ok :
    enterNonReentrant p = .ok p' ↔
      p.reentrancyLocked = false ∧ { p with reentrancyLocked := true } = p' := by
  simp only [enterNonReentrant, bind_ok, pure_ok, ensure_ok, exists_const]

@[simp] theorem increaseUserActiveDebt_ok :
    increaseUserActiveDebt borrower x p = .ok p' ↔
      I128.Fits (p.userActiveDebt borrower + x) ∧
        setUserActiveDebt borrower (p.userActiveDebt borrower + x) p = p' := by
  simp only [increaseUserActiveDebt, getUserActiveDebt, bind_ok, pure_ok, checkedI128_ok]
  constructor
  · rintro ⟨_, ⟨h, rfl⟩, rfl⟩
    exact ⟨h, rfl⟩
  · rintro ⟨h, rfl⟩
    exact ⟨_, ⟨h, rfl⟩, rfl⟩

@[simp] theorem decreaseUserActiveDebt_ok :
    decreaseUserActiveDebt borrower x p = .ok p' ↔
      I128.Fits (p.userActiveDebt borrower - x) ∧
        setUserActiveDebt borrower (p.userActiveDebt borrower - x) p = p' := by
  simp only [decreaseUserActiveDebt, getUserActiveDebt, bind_ok, pure_ok, checkedI128_ok]
  constructor
  · rintro ⟨_, ⟨h, rfl⟩, rfl⟩
    exact ⟨h, rfl⟩
  · rintro ⟨h, rfl⟩
    exact ⟨_, ⟨h, rfl⟩, rfl⟩

/-- Rewriting a stored record leaves the index alone. -/
theorem writeLoan_stored (h : p.book.loan loan.loanId = some old) :
    writeLoan loan p = .ok (setLoan loan p) := by
  have hsome : p.loans (loanShard loan.loanId) loan.loanId = some old := h
  simp [writeLoan, hsome]

theorem writeLoan_spec (h : writeLoan loan p = .ok p') :
    ∃ pages counts, p' = { setLoan loan p with
      userLoanPage := pages, userLoanCount := counts } := by
  unfold writeLoan at h
  split at h
  · simp only [appendUserLoanIndex, bind_ok, pure_ok] at h
    obtain ⟨_, -, rfl⟩ := h
    exact ⟨_, _, rfl⟩
  · cases h
    exact ⟨_, _, rfl⟩

/-- A record that is new is also entered in the index. -/
theorem writeLoan_fresh (h : writeLoan loan p = .ok p')
    (hnone : p.book.loan loan.loanId = none) :
    p'.index = p.index.append loan.borrower loan.loanId := by
  have hnone' : p.loans (loanShard loan.loanId) loan.loanId = none := hnone
  simp only [writeLoan, hnone', Option.isNone_none, if_true, appendUserLoanIndex, bind_ok,
    pure_ok, checkedU64_ok] at h
  obtain ⟨next, ⟨-, hnext⟩, rfl⟩ := h
  have hcount : next = p.userLoanCount loan.borrower + 1 := by
    have hnext' : ((p.userLoanCount loan.borrower : Int)) + 1 = next := hnext
    omega
  subst hcount
  rfl

theorem book_setLoan (loan : Loan) (p : Storage) : (setLoan loan p).book =
    { p.book with loan := Function.update p.book.loan loan.loanId (some loan) } := by
  simp only [Storage.book, setLoan, Book.mk.injEq, true_and, and_true]
  funext id
  by_cases hid : id = loan.loanId
  · subst hid
    simp
  · rw [Function.update_of_ne hid]
    by_cases hshard : loanShard id = loanShard loan.loanId
    · rw [hshard, Function.update_self, Function.update_of_ne hid]
    · rw [Function.update_of_ne hshard]

theorem book_revise (loan : Loan) (p : Storage) (change : Int) :
    (setLoan loan (setUserActiveDebt loan.borrower
      (p.userActiveDebt loan.borrower + change) p)).book = p.book.revise loan change := by
  rw [book_setLoan]
  rfl

theorem setUserActiveDebt_idem (p : Storage) : setUserActiveDebt borrower y
    (setUserActiveDebt borrower x p) = setUserActiveDebt borrower y p := by
  simp only [setUserActiveDebt, Function.update_idem]

/-- A call that returns has released its lock. -/
theorem exit_setLoan (h : p.reentrancyLocked = false) :
    exitNonReentrant (setLoan loan (setUserActiveDebt borrower y
      { p with reentrancyLocked := true })) = setLoan loan (setUserActiveDebt borrower y p) := by
  simp only [exitNonReentrant, setLoan, setUserActiveDebt, h]

end Store

/-- The contracts' addresses. -/
structure Addresses where
  reputationContract : Option Address
  vendorRegistry : Option Address
  liquidityPool : Option Address
  token : Option Address
  parametersContract : Option Address

def Storage.addresses (p : Storage) : Addresses where
  reputationContract := p.reputationContract
  vendorRegistry := p.vendorRegistry
  liquidityPool := p.liquidityPool
  token := p.token
  parametersContract := p.parametersContract

/-- The calls on other contracts depend on the storage through the addresses
only. -/
theorem forwardRepayment_congr {W : Type} {c : Clients W} {env : Env} {p q : Storage}
    {borrower : Address} {amount : Int} {allocation : RepaymentAllocation} {loan : Loan} {w : W}
    (h : p.addresses = q.addresses) :
    forwardRepayment c env p borrower amount allocation loan w
      = forwardRepayment c env q borrower amount allocation loan w := by
  cases p
  cases q
  obtain ⟨rfl, rfl, rfl, rfl, rfl⟩ := Addresses.mk.injEq .. ▸ h
  rfl

/-! ## Score updates -/

section Scores

variable {W : Type} {c : Clients W} {env : Env} {p : Storage} {borrower : Address} {loan : Loan}
variable {w w' : W}

/-- The points a repayment at `now` earns that closes the loan. -/
def scoreIncrease (now : Nat) (loan : Loan) : Nat := if now < lastDueDate loan then 15 else 10

/-- The reward is an update that has to succeed; without a reputation contract it
is skipped. -/
theorem rewardRepayment_ok :
    rewardRepayment c env p borrower loan w = .ok w' ↔
      p.reputationContract = none ∧ w = w' ∨
      ∃ reputation, p.reputationContract = some reputation ∧
        c.increaseScore (env.callFrom c.self []) reputation c.self borrower
          (scoreIncrease env.timestamp loan) w = .ok w' := by
  unfold rewardRepayment
  cases p.reputationContract with
  | none => simp
  | some reputation =>
    simp only [handleReputationIncrease, scoreIncrease, reduceCtorEq, false_and, false_or,
      Option.some.injEq, exists_eq_left']
    generalize c.increaseScore _ reputation _ _ _ w = r
    cases r <;> simp

/-- And so is the penalty. -/
theorem penalizeDefault_ok :
    penalizeDefault c env p loan w = .ok w' ↔
      p.reputationContract = none ∧ w = w' ∨
      ∃ reputation, p.reputationContract = some reputation ∧
        c.decreaseScore (env.callFrom c.self []) reputation c.self loan.borrower
          (calculateDefaultPenalty c p w loan) w = .ok w' := by
  unfold penalizeDefault
  cases p.reputationContract with
  | none => simp
  | some reputation =>
    simp only [reduceCtorEq, false_and, false_or, Option.some.injEq, exists_eq_left']
    generalize c.decreaseScore _ reputation _ _ _ w = r
    cases r <;> simp

end Scores

/-! ## Flows -/

section Flows

variable {W : Type} (c : Clients W) (env : Env) (p : Storage)

/-- The pool pays the vendor what the guarantee does not cover. -/
def LendFlow (loan : Loan) (w w' : W) : Prop :=
  ∃ pool, p.liquidityPool = some pool ∧
    if 0 < loan.totalAmount - loan.guaranteeAmount then
      c.fundLoan (env.callFrom c.self []) pool c.self loan.vendor
        (loan.totalAmount - loan.guaranteeAmount) w = .ok w'
    else w' = w

theorem LendFlow.congr {W : Type} {c : Clients W} {env : Env} {p q : Storage} {loan : Loan}
    {w w' : W} (hf : LendFlow c env p loan w w') (h : p.addresses = q.addresses) :
    LendFlow c env q loan w w' := by
  obtain ⟨pool, hpool, hw⟩ := hf
  exact ⟨pool, (congrArg Addresses.liquidityPool h).symm.trans hpool, hw⟩

/-- The borrower, of sufficient standing, pays in the guarantee; a loan active
at once is funded too. -/
structure IssueFlow (loan : Loan) (w w' : W) : Prop where
  auth : env.auths loan.borrower = true
  vendor : validateVendor c p w loan.vendor = .ok ()
  credit : ∃ score, validateReputation c p w loan.borrower = .ok score ∧
    p.userActiveDebt loan.borrower + loan.remainingBalance ≤ creditLimit score
  payments : ∃ token w₁, p.token = some token ∧
    c.transfer env token loan.borrower c.self loan.guaranteeAmount w = .ok w₁ ∧
    if loan.status = .active then LendFlow c env p loan w₁ w' else w' = w₁

structure ApproveFlow (loan : Loan) (w w' : W) : Prop where
  vendor : validateVendor c p w loan.vendor = .ok ()
  lend : LendFlow c env p loan w w'

def CancelFlow (loan : Loan) (w w' : W) : Prop :=
  ∃ token, p.token = some token ∧
    c.transfer env token c.self loan.borrower loan.guaranteeAmount w = .ok w'

/-- The payment passes through the credit line to the pool; a payment of the
whole balance also releases the guarantee and earns the reward. -/
def RepayFlow (loan : Loan) (amount : Int) (schedule : List RepaymentInstallment) (w w' : W) :
    Prop :=
  let accrued := loan.accrued env.timestamp
  let allocation := allocate accrued amount
  ∃ token pool w₁ w₂, p.token = some token ∧ p.liquidityPool = some pool ∧
    c.transfer env token loan.borrower c.self amount w = .ok w₁ ∧
    c.receiveRepayment (env.callFrom c.self [⟨token, c.self, pool, amount⟩]) pool c.self
      allocation.principalPaid allocation.interestFeeLate w₁ = .ok w₂ ∧
    if accrued.remainingBalance = amount then
      ∃ w₃, c.transfer env token c.self loan.borrower loan.guaranteeAmount w₂ = .ok w₃ ∧
        rewardRepayment c env p loan.borrower (accrued.repaid amount schedule) w₃ = .ok w'
    else w' = w₂

/-- The guarantee goes to the pool, which writes off the rest; the borrower's
score is lowered. -/
def ForfeitFlow (loan : Loan) (w w' : W) : Prop :=
  ∃ token pool w₁ w₂, p.token = some token ∧ p.liquidityPool = some pool ∧
    c.receiveGuarantee (env.callFrom c.self [⟨token, c.self, pool, loan.guaranteeAmount⟩]) pool
      c.self loan.guaranteeAmount w = .ok w₁ ∧
    (if 0 < principalShortfall loan then
      c.absorbLoss (env.callFrom c.self []) pool c.self (principalShortfall loan) w₁ = .ok w₂
    else w₂ = w₁) ∧
    penalizeDefault c env p loan w₂ = .ok w'

end Flows

/-! ## Repayment -/

section Settle

variable {W : Type} {c : Clients W} {env : Env} {s s' : State W}
variable {borrower : Address} {loanId : Nat} {amount r : Int}
variable {check : Loan → Except Failure Unit}
variable {mark : List RepaymentInstallment → List RepaymentInstallment}

theorem addAccruedFee_ok {fee : Int} {p p' : Storage} (h0 : 0 ≤ fee) :
    addAccruedFee borrower fee p = .ok p' ↔
      (0 < fee → I128.Fits (p.userActiveDebt borrower + fee)) ∧
        setUserActiveDebt borrower (p.userActiveDebt borrower + fee) p = p' := by
  unfold addAccruedFee
  split
  · rename_i h
    simp only [increaseUserActiveDebt_ok, h, forall_const]
  · rename_i h
    have hz : fee = 0 := by omega
    subst hz
    simp [setUserActiveDebt]

theorem closeLoan_eq {loan : Loan} (hstatus : loan.status = .active) :
    closeLoan mark (loan.paidDown amount) = loan.repaid amount (mark loan.repaymentSchedule) := by
  by_cases h : loan.remainingBalance = amount
  · subst h
    simp only [closeLoan, Loan.repaid, Loan.paidDown, Int.sub_self, if_true]
  · have h0 : ¬loan.remainingBalance - amount = 0 := by omega
    simp only [closeLoan, Loan.repaid, Loan.paidDown, h0, h, if_false, hstatus]

theorem forwardRepayment_ok {p : Storage} {loan : Loan} {schedule : List RepaymentInstallment}
    {w w' : W} (hs : (loan.accrued env.timestamp).Sound) (h0 : 0 < amount)
    (hle : amount ≤ (loan.accrued env.timestamp).remainingBalance) :
    forwardRepayment c env p loan.borrower amount (allocate (loan.accrued env.timestamp) amount)
      ((loan.accrued env.timestamp).repaid amount schedule) w = .ok w' ↔
      RepayFlow c env p loan amount schedule w w' := by
  obtain ⟨⟨hl, hl'⟩, ⟨hi, hi'⟩, ⟨hf, hf'⟩, ⟨hp, -⟩, htotal, -⟩ :=
    allocate_spec hs (Int.le_of_lt h0) hle
  have hfits : ∀ x : Int, 0 ≤ x → x ≤ amount → I128.Fits x := fun x hx hxa =>
    I128.fits_of_le hs.remaining_fits hx (Int.le_trans hxa hle)
  have hzero : ((loan.accrued env.timestamp).repaid amount schedule).remainingBalance = 0 ↔
      (loan.accrued env.timestamp).remainingBalance = amount := by
    simp only [Loan.repaid, Loan.paidDown]
    omega
  have hlast : ∀ (token : Address) (w₂ : W),
      (if (loan.accrued env.timestamp).remainingBalance = amount then do
        let w ← c.transfer env token c.self loan.borrower loan.guaranteeAmount w₂
        rewardRepayment c env p loan.borrower
          ((loan.accrued env.timestamp).repaid amount schedule) w
      else .ok w₂) = .ok w' ↔
      if (loan.accrued env.timestamp).remainingBalance = amount then
        ∃ w₃, c.transfer env token c.self loan.borrower loan.guaranteeAmount w₂ = .ok w₃ ∧
          rewardRepayment c env p loan.borrower
            ((loan.accrued env.timestamp).repaid amount schedule) w₃ = .ok w'
      else w' = w₂ := by
    intro token w₂
    split
    · exact bind_ok
    · rw [Except.ok.injEq, eq_comm]
  simp only [forwardRepayment, RepayFlow, bind_ok, demand_ok, addI128_ok, hzero]
  constructor
  · rintro ⟨pool, hpool, token, htoken, w₁, h₁, _, ⟨-, rfl⟩, _, ⟨-, rfl⟩, w₂, h₂, h₃⟩
    exact ⟨token, pool, w₁, w₂, htoken, hpool, h₁, h₂, (hlast token w₂).mp h₃⟩
  · rintro ⟨token, pool, w₁, w₂, htoken, hpool, h₁, h₂, h₃⟩
    exact ⟨pool, hpool, token, htoken, w₁, h₁, _, ⟨hfits _ (by omega) (by omega), rfl⟩, _,
      ⟨hfits _ (by omega) (by omega), rfl⟩, w₂, h₂, (hlast token w₂).mpr h₃⟩

/-- The end of a repayment, from the storage `p` on: the record is written, the
payment made, the lock released. -/
theorem settleEnd_ok {p : Storage} {loan : Loan} {schedule : List RepaymentInstallment} {w : W}
    (hs : (loan.accrued env.timestamp).Sound) (hpos : 0 < amount)
    (hle : amount ≤ (loan.accrued env.timestamp).remainingBalance)
    (hstored : p.book.loan loan.loanId = some loan) (hlock : p.reentrancyLocked = false) :
    let paid := (loan.accrued env.timestamp).repaid amount schedule
    let debt := p.userActiveDebt loan.borrower - amount
    (∃ line, writeLoan paid (setUserActiveDebt loan.borrower debt
        { p with reentrancyLocked := true }) = .ok line ∧
      ∃ w', forwardRepayment c env line loan.borrower amount
          (allocate (loan.accrued env.timestamp) amount) paid w = .ok w' ∧
        (paid.remainingBalance, State.mk (exitNonReentrant line) w') = (r, s')) ↔
      RepayFlow c env p loan amount schedule w s'.world ∧
        r = (loan.accrued env.timestamp).remainingBalance - amount ∧
        s'.line = setLoan paid (setUserActiveDebt loan.borrower debt p) := by
  intro paid debt
  have hwrite : writeLoan paid (setUserActiveDebt loan.borrower debt
      { p with reentrancyLocked := true }) = .ok _ := writeLoan_stored hstored
  have hforward : ∀ w', forwardRepayment c env (setLoan paid (setUserActiveDebt loan.borrower debt
      { p with reentrancyLocked := true })) loan.borrower amount
        (allocate (loan.accrued env.timestamp) amount) paid w = .ok w' ↔
      RepayFlow c env p loan amount schedule w w' := by
    intro w'
    rw [← forwardRepayment_ok hs hpos hle]
    exact Eq.congr_left (forwardRepayment_congr (by rfl))
  simp only [hwrite, Except.ok.injEq, exists_eq_left', hforward, exit_setLoan hlock, Prod.mk.injEq]
  constructor
  · rintro ⟨w', hflow, rfl, rfl⟩
    exact ⟨hflow, rfl, rfl⟩
  · rintro ⟨hflow, rfl, hline⟩
    exact ⟨s'.world, hflow, rfl, congrArg (State.mk · s'.world) hline.symm⟩

/-- A repayment succeeds exactly when its checks pass and its payments go
through, and then pays the accrued loan down. -/
theorem settle_ok (hb : s.line.book.Sound) :
    settle c env borrower loanId amount check mark s = .ok (r, s') ↔
      env.auths borrower = true ∧ ∃ loan, s.line.book.loan loanId = some loan ∧
        loan.borrower = borrower ∧ loan.status = .active ∧ check loan = .ok () ∧
        AccrualFits env.timestamp loan ∧
        (0 < lateFee env.timestamp loan →
          I128.Fits (s.line.userActiveDebt borrower + lateFee env.timestamp loan)) ∧
        0 < amount ∧ amount ≤ (loan.accrued env.timestamp).remainingBalance ∧
        s.line.reentrancyLocked = false ∧
        I128.Fits (s.line.userActiveDebt borrower + lateFee env.timestamp loan - amount) ∧
        RepayFlow c env s.line loan amount (mark loan.repaymentSchedule) s.world s'.world ∧
        r = (loan.accrued env.timestamp).remainingBalance - amount ∧
        s'.line = setLoan
          ((loan.accrued env.timestamp).repaid amount (mark loan.repaymentSchedule))
          (setUserActiveDebt borrower
            (s.line.userActiveDebt borrower + lateFee env.timestamp loan - amount) s.line) := by
  simp only [settle, bind_ok, pure_ok, requireAuth_ok, ensure_ok, exists_const, readLoan_ok,
    enterNonReentrant_ok, decreaseUserActiveDebt_ok]
  refine and_congr_right fun hauth => exists_congr fun loan => and_congr_right fun hloan =>
    and_congr_right fun hborrower => and_congr_right fun hactive => ?_
  subst hborrower
  have hs := hb.loans _ _ hloan
  have hid : loan.loanId = loanId := hb.keyed _ _ hloan
  have hfee : 0 ≤ lateFee env.timestamp loan := lateFee_nonneg hs.remaining_nonneg
  -- The storage once the fee is booked, which the payment starts from.
  let p := setUserActiveDebt loan.borrower
    (s.line.userActiveDebt loan.borrower + lateFee env.timestamp loan) s.line
  have hdebt : p.userActiveDebt loan.borrower
      = s.line.userActiveDebt loan.borrower + lateFee env.timestamp loan := Function.update_self ..
  have hstored : p.book.loan loan.loanId = some loan := by
    rw [hid, ← hloan]
    rfl
  have hclose : closeLoan mark ((loan.accrued env.timestamp).paidDown amount)
      = (loan.accrued env.timestamp).repaid amount (mark loan.repaymentSchedule) :=
    closeLoan_eq hactive
  constructor
  · rintro ⟨_, hcheck, accrued, haccrued, line, hline, ⟨hpos, hle⟩, _, ⟨hlock, rfl⟩, paid, hpaid,
      _, ⟨hfits, rfl⟩, hrest⟩
    obtain ⟨haccrual, rfl⟩ := (accrue_ok hs env.timestamp_lt).mp haccrued
    obtain ⟨hgrown, rfl⟩ := (addAccruedFee_ok hfee).mp hline
    have hs' := hs.accrued hactive haccrual
    obtain rfl := (applyWaterfall_ok hs'.balanced (Int.le_of_lt hpos) hle).mp hpaid
    dsimp only at hrest
    rw [hclose] at hrest
    obtain ⟨hflow, hleft, hline⟩ := (settleEnd_ok (p := p) hs' hpos hle hstored hlock).mp hrest
    refine ⟨hcheck, haccrual, hgrown, hpos, hle, hlock, hdebt ▸ hfits, hflow, hleft, ?_⟩
    rw [hline, ← hdebt]
    exact congrArg _ (setUserActiveDebt_idem s.line)
  · rintro ⟨hcheck, haccrual, hgrown, hpos, hle, hlock, hfits, hflow, hleft, hline⟩
    have hs' := hs.accrued hactive haccrual
    rw [← hdebt, ← setUserActiveDebt_idem s.line] at hline
    refine ⟨(), hcheck, _, (accrue_ok hs env.timestamp_lt).mpr ⟨haccrual, rfl⟩, p,
      (addAccruedFee_ok hfee).mpr ⟨hgrown, rfl⟩, ⟨hpos, hle⟩, _, ⟨hlock, rfl⟩, _,
      (applyWaterfall_ok hs'.balanced (Int.le_of_lt hpos) hle).mpr rfl, _, ⟨hdebt ▸ hfits, rfl⟩, ?_⟩
    dsimp only
    rw [hclose]
    exact (settleEnd_ok (p := p) hs' hpos hle hstored hlock).mpr ⟨hflow, hleft, hline⟩

end Settle

/-! ## Default, accrual, cancellation -/

section Lifecycle

variable {W : Type} {c : Clients W} {env : Env} {s s' : State W} {loanId : Nat}

/-- The shortfall is an exact difference: both amounts are within the loan's. -/
theorem principalShortfall_eq {loan : Loan} (hs : loan.Sound) :
    principalShortfall loan = loan.principalOutstanding - loan.guaranteeAmount := by
  have hfits : I128.Fits (loan.principalOutstanding - loan.guaranteeAmount) := by
    have h1 := hs.total_fits
    have h2 := hs.principal_nonneg
    have h3 := hs.principal_le
    have h4 := hs.guarantee_le
    have h5 := hs.guarantee_pos
    unfold I128.Fits at *
    omega
  rw [principalShortfall, subI128_ok.mpr ⟨hfits, rfl⟩]
  rfl

theorem realizeDefault_congr {p q : Storage} {pool : Address} {loan : Loan} {w : W}
    (h : p.addresses = q.addresses) :
    realizeDefault c env p pool loan w = realizeDefault c env q pool loan w := by
  cases p
  cases q
  obtain ⟨rfl, rfl, rfl, rfl, rfl⟩ := Addresses.mk.injEq .. ▸ h
  rfl

theorem realizeDefault_ok {p : Storage} {pool : Address} {loan : Loan} {w w' : W} :
    realizeDefault c env p pool loan w = .ok w' ↔ ∃ token w₁ w₂, p.token = some token ∧
      c.receiveGuarantee (env.callFrom c.self [⟨token, c.self, pool, loan.guaranteeAmount⟩]) pool
        c.self loan.guaranteeAmount w = .ok w₁ ∧
      (if 0 < principalShortfall loan then
        c.absorbLoss (env.callFrom c.self []) pool c.self (principalShortfall loan) w₁ = .ok w₂
      else w₂ = w₁) ∧
      penalizeDefault c env p loan w₂ = .ok w' := by
  have hloss : ∀ w₁ w₂ : W, (if 0 < principalShortfall loan then
        c.absorbLoss (env.callFrom c.self []) pool c.self (principalShortfall loan) w₁
      else .ok w₁) = .ok w₂ ↔
      if 0 < principalShortfall loan then
        c.absorbLoss (env.callFrom c.self []) pool c.self (principalShortfall loan) w₁ = .ok w₂
      else w₂ = w₁ := by
    intro w₁ w₂
    split
    · rfl
    · rw [Except.ok.injEq, eq_comm]
  simp only [realizeDefault, bind_ok, demand_ok, hloss]
  constructor
  · rintro ⟨token, htoken, w₁, h₁, w₂, h₂, h₃⟩
    exact ⟨token, w₁, w₂, htoken, h₁, h₂, h₃⟩
  · rintro ⟨token, w₁, w₂, htoken, h₁, h₂, h₃⟩
    exact ⟨token, htoken, w₁, h₁, w₂, h₂, h₃⟩

/-- A default succeeds exactly when the loan is past its grace period and the
calls on the pool and the reputation contract go through. -/
theorem markDefaulted_ok (hb : s.line.book.Sound) :
    markDefaulted c env loanId s = .ok s' ↔
      s.line.paused = false ∧ ∃ loan, s.line.book.loan loanId = some loan ∧
        loan.status = .active ∧
        (∃ ends, graceEndsAt c env.timestamp s.line s.world loan = .ok ends ∧
          ends < env.timestamp) ∧
        s.line.reentrancyLocked = false ∧
        I128.Fits (s.line.userActiveDebt loan.borrower - loan.remainingBalance) ∧
        ForfeitFlow c env s.line loan s.world s'.world ∧
        s'.line = setLoan { loan with status := .defaulted }
          (setUserActiveDebt loan.borrower
            (s.line.userActiveDebt loan.borrower - loan.remainingBalance) s.line) := by
  simp only [markDefaulted, requireNotPaused, bind_ok, pure_ok, ensure_ok, exists_const,
    readLoan_ok, enterNonReentrant_ok, decreaseUserActiveDebt_ok, demand_ok]
  refine and_congr_right fun hpause => exists_congr fun loan => and_congr_right fun hloan =>
    and_congr_right fun hactive => ?_
  have hid : loan.loanId = loanId := hb.keyed _ _ hloan
  let closed : Loan := { loan with status := .defaulted }
  let p₁ := setUserActiveDebt loan.borrower
    (s.line.userActiveDebt loan.borrower - loan.remainingBalance)
    { s.line with reentrancyLocked := true }
  have hstored : p₁.book.loan closed.loanId = some loan := by
    rw [← hloan, ← hid]
    rfl
  have hwrite : writeLoan closed p₁ = .ok (setLoan closed p₁) := writeLoan_stored hstored
  -- The calls read neither the loan's status nor the storage beyond its addresses.
  have hcalls : ∀ pool, realizeDefault c env (setLoan closed p₁) pool closed s.world
      = realizeDefault c env s.line pool loan s.world := fun pool =>
    realizeDefault_congr (by rfl)
  constructor
  · rintro ⟨ends, hends, hgrace, pool, hpool, _, ⟨hlock, rfl⟩, _, ⟨hfits, rfl⟩, line, hline,
      w', hflow, rfl⟩
    obtain rfl := Except.ok.inj (hwrite.symm.trans hline)
    obtain ⟨token, w₁, w₂, htoken, h₁, h₂, h₃⟩ :=
      realizeDefault_ok.mp ((hcalls pool).symm.trans hflow)
    exact ⟨⟨ends, hends, hgrace⟩, hlock, hfits, ⟨token, pool, w₁, w₂, htoken, hpool, h₁, h₂, h₃⟩,
      exit_setLoan hlock⟩
  · rintro ⟨⟨ends, hends, hgrace⟩, hlock, hfits,
      ⟨token, pool, w₁, w₂, htoken, hpool, h₁, h₂, h₃⟩, hline⟩
    refine ⟨ends, hends, hgrace, pool, hpool, _, ⟨hlock, rfl⟩, p₁, ⟨hfits, rfl⟩, _, hwrite,
      s'.world, (hcalls pool).trans (realizeDefault_ok.mpr ⟨token, w₁, w₂, htoken, h₁, h₂, h₃⟩),
      ?_⟩
    rw [exit_setLoan hlock, ← hline]

/-- An accrual that charges nothing leaves the state; any other books its fee. -/
theorem applyLateFees_ok (hb : s.line.book.Sound) :
    applyLateFees env loanId s = .ok s' ↔ ∃ loan, s.line.book.loan loanId = some loan ∧
      loan.status = .active ∧ AccrualFits env.timestamp loan ∧
      (lateFee env.timestamp loan = 0 ∧ s' = s ∨ lateFee env.timestamp loan ≠ 0 ∧
        I128.Fits (s.line.userActiveDebt loan.borrower + lateFee env.timestamp loan) ∧
        s' = ⟨setLoan (loan.accrued env.timestamp) (setUserActiveDebt loan.borrower
            (s.line.userActiveDebt loan.borrower + lateFee env.timestamp loan) s.line),
          s.world⟩) := by
  simp only [applyLateFees, bind_ok, ensure_ok, exists_const, readLoan_ok]
  refine exists_congr fun loan => and_congr_right fun hloan => and_congr_right fun _ => ?_
  have hs := hb.loans _ _ hloan
  have hid : loan.loanId = loanId := hb.keyed _ _ hloan
  have hstored : (setUserActiveDebt loan.borrower
      (s.line.userActiveDebt loan.borrower + lateFee env.timestamp loan)
      s.line).book.loan (loan.accrued env.timestamp).loanId = some loan := by
    rw [← hloan, ← hid]
    rfl
  simp only [accrue_ok hs env.timestamp_lt]
  constructor
  · rintro ⟨_, ⟨hfits, rfl⟩, h⟩
    refine ⟨hfits, ?_⟩
    by_cases hfee : lateFee env.timestamp loan = 0
    · simp only [hfee, if_true, Except.ok.injEq] at h
      exact .inl ⟨hfee, h.symm⟩
    · simp only [hfee, if_false, bind_ok, pure_ok, increaseUserActiveDebt_ok] at h
      obtain ⟨_, ⟨hdebt, rfl⟩, line, hline, rfl⟩ := h
      obtain rfl := Except.ok.inj ((writeLoan_stored hstored).symm.trans hline)
      exact .inr ⟨hfee, hdebt, rfl⟩
  · rintro ⟨hfits, ⟨hfee, rfl⟩ | ⟨hfee, hdebt, rfl⟩⟩
    · exact ⟨_, ⟨hfits, rfl⟩, by simp only [hfee, if_true]⟩
    · refine ⟨_, ⟨hfits, rfl⟩, ?_⟩
      simp only [hfee, if_false, bind_ok, pure_ok, increaseUserActiveDebt_ok]
      exact ⟨_, ⟨hdebt, rfl⟩, _, writeLoan_stored hstored, rfl⟩

theorem applyLateFees_spec (hb : s.line.book.Sound)
    (h : applyLateFees env loanId s = .ok s') :
    ∃ loan, s.line.book.loan loanId = some loan ∧ loan.status = .active ∧
      AccrualFits env.timestamp loan ∧ s'.world = s.world ∧
      (s'.line = s.line ∧ lateFee env.timestamp loan = 0 ∨
        s'.line = setLoan (loan.accrued env.timestamp)
          (setUserActiveDebt loan.borrower
            (s.line.userActiveDebt loan.borrower + lateFee env.timestamp loan) s.line)) := by
  obtain ⟨loan, hloan, hactive, hfits, ⟨hfee, rfl⟩ | ⟨-, -, rfl⟩⟩ := (applyLateFees_ok hb).mp h
  · exact ⟨loan, hloan, hactive, hfits, rfl, .inl ⟨rfl, hfee⟩⟩
  · exact ⟨loan, hloan, hactive, hfits, rfl, .inr rfl⟩

theorem cancelLoan_spec {caller : Address} (hb : s.line.book.Sound)
    (h : cancelLoan c env caller loanId s = .ok s') :
    ∃ loan, s.line.book.loan loanId = some loan ∧ loan.status = .pending ∧
      CancelFlow c env s.line loan s.world s'.world ∧
      s'.line = setLoan { loan with status := .cancelled } s.line := by
  simp only [cancelLoan, bind_ok, pure_ok, ensure_ok, exists_const, readLoan_ok, demand_ok,
    enterNonReentrant_ok] at h
  obtain ⟨_, -, _, -, loan, hloan, hpending, _, -, -, token, htoken, _, -, -, _, ⟨hlock, rfl⟩,
    line, hline, w, hw, rfl⟩ := h
  have hid : loan.loanId = loanId := hb.keyed _ _ hloan
  have hpos := (hb.loans _ _ hloan).guarantee_pos
  have hstored : (Storage.book { s.line with reentrancyLocked := true }).loan loan.loanId
      = some loan := by
    rw [← hloan, ← hid]
    rfl
  have hwrite : writeLoan { loan with status := .cancelled } _ = .ok _ := writeLoan_stored hstored
  obtain rfl := Except.ok.inj (hwrite.symm.trans hline)
  rw [if_pos hpos] at hw
  refine ⟨loan, hloan, hpending, ⟨token, htoken, hw⟩, ?_⟩
  simp only [exitNonReentrant, setLoan, hlock]

end Lifecycle

/-! ## Lending -/

section Lending

variable {W : Type} {c : Clients W} {env : Env} {s s' : State W} {loanId : Nat}
variable {r : LoanRequest}

theorem validateGuarantee_spec {p : Storage} {w : W} {total guarantee : Int} {u : Unit}
    (h : validateGuarantee c p w total guarantee = .ok u) :
    0 < total ∧ 0 < guarantee ∧ guarantee ≤ total := by
  simp only [validateGuarantee, bind_ok, ensure_ok, exists_const] at h
  obtain ⟨⟨hpos, hg⟩, hle, -⟩ := h
  exact ⟨hpos, hg, hle⟩

theorem calculateBpsAmount_nonneg {base bps x : Int} (h0 : 0 ≤ base) (h1 : 0 ≤ bps)
    (h : calculateBpsAmount base bps = .ok x) : 0 ≤ x := by
  simp only [calculateBpsAmount, bind_ok, mulI128_ok, divI128_ok] at h
  obtain ⟨_, ⟨-, rfl⟩, -, -, rfl⟩ := h
  exact Int.tdiv_nonneg (Int.mul_nonneg h0 h1) (by decide)

theorem buildLoan_spec {score : Nat} {status : LoanStatus} {p : Storage} {w : W}
    {built : Loan × Storage} (hstatus : status ≠ .paid)
    (h : buildLoan c env r score status p w = .ok built) :
    built.1.Issued r env.timestamp ∧ built.1.status = status ∧
      built.1.loanId = p.loanCounter + 1 ∧
      p.userActiveDebt r.user + built.1.remainingBalance ≤ creditLimit score ∧
      validateVendor c p w r.vendor = .ok () ∧
      built.2 = { p with loanCounter := p.loanCounter + 1 } := by
  simp only [buildLoan, bind_ok, pure_ok, ensure_ok, exists_const, addI128_ok,
    incrementLoanCounter, getLoanCounter, checkedU64_ok, getUserActiveDebt] at h
  obtain ⟨_, hguarantee, _, hvendor, interest, hinterest, service, hservice, _, ⟨-, rfl⟩, _,
    ⟨hfits, rfl⟩, _, ⟨-, rfl⟩, hlimit, _, ⟨next, ⟨-, hnext⟩, rfl⟩, rfl⟩ := h
  obtain ⟨htotal, hpos, hle⟩ := validateGuarantee_spec hguarantee
  have hi := calculateBpsAmount_nonneg (Int.le_of_lt htotal) (Int.natCast_nonneg _) hinterest
  have hs := calculateBpsAmount_nonneg (Int.le_of_lt htotal) (by decide) hservice
  have hnext' : next = p.loanCounter + 1 := by omega
  subst hnext'
  have htotalfits : I128.Fits r.totalAmount :=
    I128.fits_of_le hfits (Int.le_of_lt htotal) (by omega)
  refine ⟨⟨?_, rfl, rfl, rfl, rfl, rfl, rfl, rfl, rfl, rfl, rfl, rfl⟩, rfl, rfl, hlimit,
    hvendor, rfl⟩
  exact {
    guarantee_pos := hpos
    guarantee_le := hle
    total_fits := htotalfits
    buckets := (Int.add_zero _).symm
    principal_nonneg := Int.le_of_lt htotal
    interest_nonneg := hi
    serviceFee_nonneg := hs
    lateFees_nonneg := Int.le_refl 0
    principal_le := Int.le_refl _
    interest_le := Int.le_refl _
    serviceFee_le := Int.le_refl _
    remaining_fits := hfits
    owes := fun _ => htotal
    settled := fun h => absurd h hstatus }

theorem Loan.Issued.funded {loan : Loan} {now : Nat} (h : loan.Issued r now)
    (hstatus : loan.status ≠ .paid) (t : Nat) : Loan.Issued { loan with fundedAt := t } r now :=
  ⟨h.sound.status hstatus hstatus t, h.borrower, h.vendor, h.total, h.guarantee, h.schedule,
    h.createdAt, h.principal, h.interest, h.serviceFee, h.lateFees, h.cursor⟩

theorem fundLoanFromPool_spec {p : Storage} (loan : Loan) {pull : Bool} {w w' : W}
    (h : fundLoanFromPool c env p loan.borrower loan.vendor loan.guaranteeAmount
      (loan.totalAmount - loan.guaranteeAmount) pull w = .ok w') :
    ∃ w₁, (if pull then pullGuarantee c env p loan.borrower loan.guaranteeAmount w
      else .ok w) = .ok w₁ ∧ LendFlow c env p loan w₁ w' := by
  simp only [fundLoanFromPool, bind_ok, demand_ok] at h
  obtain ⟨pool, hpool, w₁, h₁, h₂⟩ := h
  refine ⟨w₁, h₁, pool, hpool, ?_⟩
  by_cases hpos : 0 < loan.totalAmount - loan.guaranteeAmount
  · rwa [if_pos hpos] at h₂ ⊢
  · rw [if_neg hpos] at h₂ ⊢
    exact (Except.ok.inj h₂).symm

theorem pullGuarantee_ok {p : Storage} {borrower : Address} {guarantee : Int} {w w' : W} :
    pullGuarantee c env p borrower guarantee w = .ok w' ↔ ∃ token, p.token = some token ∧
      c.transfer env token borrower c.self guarantee w = .ok w' := by
  simp only [pullGuarantee, bind_ok, demand_ok]

/-- The record and the index entry of a new loan. -/
structure Files (loan : Loan) (p p' : Storage) : Prop where
  counter : p'.loanCounter = p.loanCounter + 1
  loans : p'.loans = (setLoan loan p).loans
  index : p.book.loan loan.loanId = none → p'.index = p.index.append loan.borrower loan.loanId

theorem book_issue {p p' : Storage} (loan : Loan) {change : Int}
    (h : writeLoan loan (setUserActiveDebt loan.borrower
      (p.userActiveDebt loan.borrower + change)
      { p with loanCounter := p.loanCounter + 1 }) = .ok p') :
    p'.book = { p.book.revise loan change with counter := p.book.counter + 1 } ∧
      p'.addresses = p.addresses ∧ p'.reentrancyLocked = p.reentrancyLocked ∧
      Files loan p p' := by
  have hindex := writeLoan_fresh h
  obtain ⟨pages, counts, rfl⟩ := writeLoan_spec h
  refine ⟨?_, rfl, rfl, rfl, rfl, hindex⟩
  have hbook := book_setLoan loan (setUserActiveDebt loan.borrower
    (p.userActiveDebt loan.borrower + change) { p with loanCounter := p.loanCounter + 1 })
  exact hbook

theorem createLoan_spec {id : Nat} (h : createLoan c env r s = .ok (id, s')) :
    ∃ loan : Loan, loan.Issued r env.timestamp ∧ loan.status = .active ∧
      loan.fundedAt = env.timestamp ∧ loan.loanId = s.line.book.counter + 1 ∧ id = loan.loanId ∧
      IssueFlow c env s.line loan s.world s'.world ∧
      s'.line.book = (Event.issue loan).apply s.line.book ∧
      s'.line.addresses = s.line.addresses ∧ s'.line.reentrancyLocked = false ∧
      Files loan s.line s'.line := by
  simp only [createLoan, bind_ok, pure_ok, exists_const, requireAuth_ok, enterNonReentrant_ok,
    increaseUserActiveDebt_ok, subI128_ok] at h
  obtain ⟨hauth, _, -, _, -, _, hvendor, score, hscore, _, -, _, ⟨hlock, rfl⟩, built, hbuilt, _,
    ⟨-, rfl⟩, line, hline, _, ⟨-, rfl⟩, w, hw, hres⟩ := h
  obtain ⟨hissued, hstatus, hid, hlimit, -, hbuilt₂⟩ := buildLoan_spec (by decide) hbuilt
  obtain ⟨loan, p₁⟩ := built
  dsimp only at hissued hstatus hid hlimit hbuilt₂ hline hw hres
  subst hbuilt₂
  let opened : Loan := { loan with fundedAt := env.timestamp }
  have hopened : opened.Issued r env.timestamp :=
    hissued.funded (by simp [hstatus]) env.timestamp
  have hactive : opened.status = .active := hstatus
  rw [← hissued.borrower] at hauth hscore hlimit hline hw
  rw [← hissued.vendor] at hvendor hw
  rw [← hissued.total, ← hissued.guarantee] at hw
  obtain ⟨hbook, haddr, hlock', hfiles⟩ := book_issue opened
    (p := { s.line with reentrancyLocked := true }) hline
  obtain ⟨w₁, hpull, hlend⟩ := fundLoanFromPool_spec opened hw
  obtain ⟨token, htoken, hpaid⟩ := pullGuarantee_ok.mp hpull
  obtain ⟨rfl, rfl⟩ := Prod.mk.injEq .. ▸ hres
  have htoken' : s.line.token = some token := by
    rw [← htoken]
    exact (congrArg Addresses.token haddr).symm
  refine ⟨opened, hopened, hactive, rfl, hid, rfl,
    ⟨hauth, hvendor, ⟨score, hscore, hlimit⟩, token, w₁, htoken', hpaid, ?_⟩,
    hbook.trans (Event.apply_issue_active hactive).symm, haddr, rfl,
    ⟨hfiles.counter, hfiles.loans, hfiles.index⟩⟩
  rw [if_pos hactive]
  exact hlend.congr haddr

theorem requestLoan_spec {id : Nat} (h : requestLoan c env r s = .ok (id, s')) :
    ∃ loan : Loan, loan.Issued r env.timestamp ∧ loan.status = .pending ∧
      loan.loanId = s.line.book.counter + 1 ∧ id = loan.loanId ∧
      IssueFlow c env s.line loan s.world s'.world ∧
      s'.line.book = (Event.issue loan).apply s.line.book ∧
      s'.line.addresses = s.line.addresses ∧
      s'.line.reentrancyLocked = s.line.reentrancyLocked ∧ Files loan s.line s'.line := by
  simp only [requestLoan, bind_ok, pure_ok, exists_const, requireAuth_ok] at h
  obtain ⟨hauth, _, -, _, -, score, hscore, built, hbuilt, w, hw, line, hline, hres⟩ := h
  obtain ⟨hissued, hstatus, hid, hlimit, hvendor, hbuilt₂⟩ := buildLoan_spec (by decide) hbuilt
  obtain ⟨loan, p₁⟩ := built
  dsimp only at hissued hstatus hid hlimit hbuilt₂ hline hw hres
  subst hbuilt₂
  rw [← hissued.borrower] at hauth hscore hlimit hw
  rw [← hissued.vendor] at hvendor
  rw [← hissued.guarantee] at hw
  obtain ⟨token, htoken, hpaid⟩ := pullGuarantee_ok.mp hw
  obtain ⟨rfl, rfl⟩ := Prod.mk.injEq .. ▸ hres
  have hsame : setUserActiveDebt loan.borrower (s.line.userActiveDebt loan.borrower + 0)
      { s.line with loanCounter := s.line.loanCounter + 1 }
      = { s.line with loanCounter := s.line.loanCounter + 1 } := by
    simp [setUserActiveDebt]
  rw [← hsame] at hline
  obtain ⟨hbook, haddr, hlock, hfiles⟩ := book_issue loan hline
  refine ⟨loan, hissued, hstatus, hid, rfl, ⟨hauth, hvendor, ⟨score, hscore, hlimit⟩, token, w,
    htoken, hpaid, ?_⟩, hbook.trans (Event.apply_issue_pending hstatus).symm, haddr, hlock,
    hfiles⟩
  rw [if_neg (by simp [hstatus])]

theorem approveLoan_spec {approved : Loan} (hb : s.line.book.Sound)
    (h : approveLoan c env loanId s = .ok (approved, s')) :
    ∃ loan : Loan, s.line.book.loan loanId = some loan ∧ loan.status = .pending ∧
      approved = { loan with status := .active, fundedAt := env.timestamp } ∧
      ApproveFlow c env s.line loan s.world s'.world ∧
      s'.line = setLoan approved (setUserActiveDebt loan.borrower
        (s.line.userActiveDebt loan.borrower + loan.remainingBalance) s.line) := by
  simp only [approveLoan, bind_ok, pure_ok, ensure_ok, exists_const, readLoan_ok,
    enterNonReentrant_ok, increaseUserActiveDebt_ok, subI128_ok] at h
  obtain ⟨_, -, _, -, _, -, loan, hloan, hpending, -, -, _, hvendor, _, -, _, -, _, ⟨hlock, rfl⟩,
    _, ⟨-, rfl⟩, _, ⟨-, rfl⟩, w, hw, line, hline, hres⟩ := h
  have hid : loan.loanId = loanId := hb.keyed _ _ hloan
  obtain ⟨w₁, hpull, hlend⟩ := fundLoanFromPool_spec loan hw
  obtain rfl := Except.ok.inj hpull
  let p₁ := setUserActiveDebt loan.borrower
    (s.line.userActiveDebt loan.borrower + loan.remainingBalance)
    { s.line with reentrancyLocked := true }
  have hstored : p₁.book.loan loan.loanId = some loan := by
    rw [← hloan, ← hid]
    rfl
  have hwrite : writeLoan { loan with status := .active, fundedAt := env.timestamp } p₁ = .ok _ :=
    writeLoan_stored hstored
  obtain rfl := Except.ok.inj (hwrite.symm.trans hline)
  obtain ⟨rfl, rfl⟩ := Prod.mk.injEq .. ▸ hres
  exact ⟨loan, hloan, hpending, rfl, ⟨hvendor, hlend.congr rfl⟩, exit_setLoan hlock⟩

end Lending

/-! ## Every call makes one entry -/

/-- The calls that leave the loans alone. -/
def Call.Passive : Call → Prop
  | .createLoan _ => False
  | .requestLoan _ => False
  | .approveLoan _ => False
  | .cancelLoan .. => False
  | .repayLoan .. => False
  | .repayInstallment .. => False
  | .applyLateFees _ => False
  | .markDefaulted _ => False
  | _ => True

/-- The calls that point the contract at other contracts. -/
def Call.Repoints : Call → Prop
  | .initializeContract .. => True
  | .setReputationContract .. => True
  | .setVendorRegistry .. => True
  | .setLiquidityPool .. => True
  | .setParametersContract .. => True
  | _ => False

/-- The calls that name another contract name the deployed one. -/
def Call.Points (d : Deployment) : Call → Prop
  | .initializeContract _ reputation registry pool token =>
    reputation = d.reputation ∧ registry = d.vendorRegistry ∧ pool = d.pool ∧ token = d.token
  | .setReputationContract _ address => address = d.reputation
  | .setVendorRegistry _ address => address = d.vendorRegistry
  | .setLiquidityPool _ address => address = d.pool
  | .setParametersContract _ address => address = d.parameters
  | _ => True

instance (d : Deployment) (call : Call) : Decidable (call.Points d) := by
  unfold Call.Points
  split <;> infer_instance

/-- Which entry a call makes. -/
inductive Records (env : Env) : Call → Event → Prop
  | passive {call : Call} : call.Passive → Records env call .idle
  | createLoan {r : LoanRequest} {loan : Loan} : loan.Issued r env.timestamp →
      loan.status = .active → loan.fundedAt = env.timestamp →
      Records env (.createLoan r) (.issue loan)
  | requestLoan {r : LoanRequest} {loan : Loan} : loan.Issued r env.timestamp →
      loan.status = .pending → Records env (.requestLoan r) (.issue loan)
  | approveLoan (loan : Loan) :
      Records env (.approveLoan loan.loanId) (.activate loan env.timestamp)
  | cancelLoan (caller : Address) (loan : Loan) :
      Records env (.cancelLoan caller loan.loanId) (.cancel loan)
  | applyLateFees (loan : Loan) :
      Records env (.applyLateFees loan.loanId) (.accrue loan env.timestamp)
  | repayLoan (loan : Loan) (amount : Int) :
      Records env (.repayLoan loan.borrower loan.loanId amount)
        (.repay loan env.timestamp amount loan.repaymentSchedule)
  | repayInstallment (loan : Loan) (index : Nat) (amount : Int) :
      Records env (.repayInstallment loan.borrower loan.loanId index amount)
        (.repay loan env.timestamp amount
          (markInstallment env.timestamp index loan.repaymentSchedule))
  | markDefaulted (loan : Loan) : Records env (.markDefaulted loan.loanId) (.forfeit loan)

/-- The calls on other contracts that go with an entry. -/
def Flow {W : Type} (c : Clients W) (env : Env) (p : Storage) (w w' : W) : Event → Prop
  | .idle => w' = w
  | .issue loan => IssueFlow c env p loan w w'
  | .activate loan _ => ApproveFlow c env p loan w w'
  | .cancel loan => CancelFlow c env p loan w w'
  | .accrue _ _ => w' = w
  | .repay loan _ amount schedule =>
    env.auths loan.borrower = true ∧ RepayFlow c env p loan amount schedule w w'
  | .forfeit loan => ForfeitFlow c env p loan w w'

structure Effect {W : Type} (c : Clients W) (env : Env) (call : Call) (s s' : State W)
    (e : Event) : Prop where
  records : Records env call e
  valid : e.Valid s.line.book
  book : s'.line.book = e.apply s.line.book
  flow : Flow c env s.line s.world s'.world e
  addresses : ¬call.Repoints → s'.line.addresses = s.line.addresses
  unlocked : s.line.reentrancyLocked = false → s'.line.reentrancyLocked = false

section Effects

variable {W : Type} {c : Clients W} {env : Env} {call : Call} {s s' : State W}

theorem adminSet_spec {admin : Address} {write : Storage → Storage} {p p' : Storage}
    (h : adminSet env admin write p = .ok p') : p' = write p := by
  simp only [adminSet, bind_ok, pure_ok] at h
  obtain ⟨_, -, _, -, rfl⟩ := h
  rfl

/-- What set-up and administration leave alone. -/
structure Keeps (call : Call) (p p' : Storage) : Prop where
  counter : p'.loanCounter = p.loanCounter
  loans : p'.loans = p.loans
  index : p'.index = p.index
  debt : p'.userActiveDebt = p.userActiveDebt
  lock : p'.reentrancyLocked = p.reentrancyLocked
  addresses : ¬call.Repoints → p'.addresses = p.addresses

theorem Keeps.book {p p' : Storage} (h : Keeps call p p') : p'.book = p.book := by
  simp only [Storage.book, h.counter, h.loans, h.debt]

theorem keeps_of_lift {r : Except Failure Storage} (h : s.lift r = .ok s')
    (hkeep : ∀ p, r = .ok p → Keeps call s.line p) :
    s'.world = s.world ∧ Keeps call s.line s'.line := by
  obtain ⟨p, hp, rfl⟩ := map_ok.mp h
  exact ⟨rfl, hkeep p hp⟩

theorem adminSet_keeps {admin : Address} {write : Storage → Storage}
    (h : s.lift (adminSet env admin write s.line) = .ok s')
    (hw : Keeps call s.line (write s.line)) :
    s'.world = s.world ∧ Keeps call s.line s'.line := by
  refine keeps_of_lift h fun p hp => ?_
  rw [adminSet_spec hp]
  exact hw

theorem settle_effect {borrower : Address} {loanId : Nat} {amount r : Int}
    {check : Loan → Except Failure Unit}
    {mark : List RepaymentInstallment → List RepaymentInstallment} (hb : s.line.book.Sound)
    (h : settle c env borrower loanId amount check mark s = .ok (r, s'))
    (hrecords : ∀ loan : Loan, loan.borrower = borrower → loan.loanId = loanId →
      Records env call (.repay loan env.timestamp amount (mark loan.repaymentSchedule))) :
    ∃ e, Effect c env call s s' e := by
  obtain ⟨hauth, loan, hloan, hborrower, hactive, -, haccrual, -, hpos, hle, hlock, -, hflow, -,
    hline⟩ := (settle_ok hb).mp h
  subst hborrower
  have hid : loan.loanId = loanId := hb.keyed _ _ hloan
  have hstored : s.line.book.loan loan.loanId = some loan := by rwa [hid]
  refine ⟨_, hrecords loan rfl hid, .repay hstored hactive haccrual hpos hle, ?_,
    ⟨hauth, hflow⟩, fun _ => ?_, fun _ => ?_⟩
  · have hchange : s.line.userActiveDebt loan.borrower + lateFee env.timestamp loan - amount
        = s.line.userActiveDebt loan.borrower + (lateFee env.timestamp loan - amount) := by omega
    rw [hline, hchange]
    exact book_revise _ _ _
  · rw [hline]
    rfl
  · rw [hline]
    exact hlock

/-- An execution empties the upgrade slot and writes nothing else but the version. -/
theorem executeUpgrade_spec {newWasmHash : WasmHash} {p p' : Storage}
    (h : executeUpgrade env newWasmHash p = .ok p') :
    ∃ version, p' = { p with version := version, pendingUpgrade := none } := by
  simp only [executeUpgrade, bind_ok, pure_ok] at h
  obtain ⟨_, -, _, -, version, -, _, -, rfl⟩ := h
  exact ⟨version, rfl⟩

/-- Set-up and administration write neither records nor the index. -/
theorem exec_keeps (hpassive : call.Passive) (h : exec c env call s = .ok s') :
    s'.world = s.world ∧ Keeps call s.line s'.line := by
  cases call with
  | initializeContract admin reputation registry pool token =>
    refine keeps_of_lift h fun p hp => ?_
    simp only [initializeContract, bind_ok, pure_ok] at hp
    obtain ⟨_, -, _, -, rfl⟩ := hp
    exact ⟨rfl, rfl, rfl, rfl, rfl, fun hn => absurd trivial hn⟩
  | setAdmin newAdmin =>
    refine keeps_of_lift h fun p hp => ?_
    simp only [setAdmin, bind_ok, pure_ok] at hp
    obtain ⟨_, -, _, -, _, -, rfl⟩ := hp
    exact ⟨rfl, rfl, rfl, rfl, rfl, fun _ => rfl⟩
  | setReputationContract admin address =>
    exact adminSet_keeps h ⟨rfl, rfl, rfl, rfl, rfl, fun hn => absurd trivial hn⟩
  | setVendorRegistry admin address =>
    exact adminSet_keeps h ⟨rfl, rfl, rfl, rfl, rfl, fun hn => absurd trivial hn⟩
  | setLiquidityPool admin address =>
    exact adminSet_keeps h ⟨rfl, rfl, rfl, rfl, rfl, fun hn => absurd trivial hn⟩
  | setParametersContract admin address =>
    exact adminSet_keeps h ⟨rfl, rfl, rfl, rfl, rfl, fun hn => absurd trivial hn⟩
  | pause admin => exact adminSet_keeps h ⟨rfl, rfl, rfl, rfl, rfl, fun _ => rfl⟩
  | unpause admin => exact adminSet_keeps h ⟨rfl, rfl, rfl, rfl, rfl, fun _ => rfl⟩
  | proposeUpgrade newWasmHash =>
    refine keeps_of_lift h fun p hp => ?_
    simp only [proposeUpgrade, bind_ok, pure_ok] at hp
    obtain ⟨_, -, _, -, _, -, rfl⟩ := hp
    exact ⟨rfl, rfl, rfl, rfl, rfl, fun _ => rfl⟩
  | executeUpgrade newWasmHash =>
    refine keeps_of_lift h fun p hp => ?_
    obtain ⟨version, rfl⟩ := executeUpgrade_spec hp
    exact ⟨rfl, rfl, rfl, rfl, rfl, fun _ => rfl⟩
  | upgrade newWasmHash =>
    refine keeps_of_lift h fun p hp => ?_
    obtain ⟨version, rfl⟩ := executeUpgrade_spec hp
    exact ⟨rfl, rfl, rfl, rfl, rfl, fun _ => rfl⟩
  | warnGracePeriod loanId =>
    obtain ⟨_, -, rfl⟩ := map_ok.mp h
    exact ⟨rfl, rfl, rfl, rfl, rfl, rfl, fun _ => rfl⟩
  | _ => exact hpassive.elim

/-- So they make no entry. -/
theorem exec_passive (hpassive : call.Passive) (h : exec c env call s = .ok s') :
    Effect c env call s s' .idle := by
  obtain ⟨hworld, hkeeps⟩ := exec_keeps hpassive h
  exact ⟨.passive hpassive, .idle, hkeeps.book, hworld, hkeeps.addresses,
    fun hl => hkeeps.lock.trans hl⟩

/-- Every call of the contract makes one valid entry in the book. -/
theorem exec_effect (hb : s.line.book.Sound) (h : exec c env call s = .ok s') :
    ∃ e, Effect c env call s s' e := by
  cases call with
  | createLoan r =>
    obtain ⟨⟨id, s₁⟩, h₁, rfl⟩ := map_ok.mp h
    obtain ⟨loan, hissued, hactive, hfunded, hid, -, hflow, hbook, haddr, hlock, -⟩ :=
      createLoan_spec h₁
    exact ⟨_, .createLoan hissued hactive hfunded, .issue hid hissued.sound (.inl hactive), hbook,
      hflow, fun _ => haddr, fun _ => hlock⟩
  | requestLoan r =>
    obtain ⟨⟨id, s₁⟩, h₁, rfl⟩ := map_ok.mp h
    obtain ⟨loan, hissued, hpending, hid, -, hflow, hbook, haddr, hlock, -⟩ := requestLoan_spec h₁
    exact ⟨_, .requestLoan hissued hpending, .issue hid hissued.sound (.inr hpending), hbook,
      hflow, fun _ => haddr, fun hl => hlock.trans hl⟩
  | approveLoan loanId =>
    obtain ⟨⟨approved, s₁⟩, h₁, rfl⟩ := map_ok.mp h
    obtain ⟨loan, hloan, hpending, rfl, hflow, hline⟩ := approveLoan_spec hb h₁
    obtain rfl := hb.keyed _ _ hloan
    refine ⟨_, .approveLoan loan, .activate hloan hpending, ?_, hflow, fun _ => ?_, fun hl => ?_⟩
    · rw [hline]
      exact book_revise _ _ _
    · rw [hline]
      rfl
    · rw [hline]
      exact hl
  | cancelLoan caller loanId =>
    obtain ⟨loan, hloan, hpending, hflow, hline⟩ := cancelLoan_spec hb h
    obtain rfl := hb.keyed _ _ hloan
    refine ⟨_, .cancelLoan caller loan, .cancel hloan hpending, ?_, hflow, fun _ => ?_,
      fun hl => ?_⟩
    · rw [hline, book_setLoan]
      simp only [Event.apply, Book.revise, Int.add_zero, Function.update_eq_self]
    · rw [hline]
      rfl
    · rw [hline]
      exact hl
  | repayLoan borrower loanId amount =>
    obtain ⟨⟨r, s₁⟩, h₁, rfl⟩ := map_ok.mp h
    refine settle_effect hb h₁ fun loan hborrower hid => ?_
    subst hborrower hid
    exact .repayLoan loan amount
  | repayInstallment borrower loanId index amount =>
    obtain ⟨⟨r, s₁⟩, h₁, rfl⟩ := map_ok.mp h
    refine settle_effect hb h₁ fun loan hborrower hid => ?_
    subst hborrower hid
    exact .repayInstallment loan index amount
  | applyLateFees loanId =>
    obtain ⟨loan, hloan, hactive, haccrual, hw, hline⟩ := applyLateFees_spec hb h
    obtain rfl := hb.keyed _ _ hloan
    refine ⟨_, .applyLateFees loan, .accrue hloan hactive haccrual, ?_, hw, fun _ => ?_,
      fun hl => ?_⟩
    -- Without a fee nothing is written, and the entry changes nothing.
    · rcases hline with ⟨hline, hfee⟩ | hline
      · have hsame : loan.accrued env.timestamp = loan := charged_of_no_fee hfee
        rw [hline, Event.apply, hsame, hfee]
        exact (Book.revise_self hloan).symm
      · rw [hline]
        exact book_revise _ _ _
    · rcases hline with ⟨hline, -⟩ | hline <;> rw [hline]
      rfl
    · rcases hline with ⟨hline, -⟩ | hline <;> rw [hline] <;> exact hl
  | markDefaulted loanId =>
    obtain ⟨-, loan, hloan, hactive, -, hlock, -, hflow, hline⟩ := (markDefaulted_ok hb).mp h
    obtain rfl := hb.keyed _ _ hloan
    refine ⟨_, .markDefaulted loan, .forfeit hloan hactive, ?_, hflow, fun _ => ?_, fun _ => ?_⟩
    · rw [hline, Int.sub_eq_add_neg]
      exact book_revise _ _ _
    · rw [hline]
      rfl
    · rw [hline]
      exact hlock
  | _ => exact ⟨.idle, exec_passive trivial h⟩

/-- Every address stored is the deployed contract's. -/
structure Addresses.Sound (d : Deployment) (g : Addresses) : Prop where
  reputationContract : ∀ a, g.reputationContract = some a → a = d.reputation
  vendorRegistry : ∀ a, g.vendorRegistry = some a → a = d.vendorRegistry
  liquidityPool : ∀ a, g.liquidityPool = some a → a = d.pool
  token : ∀ a, g.token = some a → a = d.token
  parametersContract : ∀ a, g.parametersContract = some a → a = d.parameters

theorem eq_of_some {α : Type} {x a : α} (h : x = a) (y : α) (hy : some x = some y) : y = a :=
  (Option.some.inj hy).symm.trans h

theorem exec_addresses {d : Deployment} (hb : s.line.book.Sound)
    (hs : s.line.addresses.Sound d) (hp : call.Points d) (h : exec c env call s = .ok s') :
    s'.line.addresses.Sound d := by
  by_cases hr : call.Repoints
  · cases call with
    | initializeContract admin reputation registry pool token =>
      obtain ⟨p, hp', rfl⟩ := map_ok.mp h
      simp only [initializeContract, bind_ok, pure_ok] at hp'
      obtain ⟨_, -, _, -, rfl⟩ := hp'
      obtain ⟨hrep, hreg, hpool, htoken⟩ := hp
      exact ⟨eq_of_some hrep, eq_of_some hreg, eq_of_some hpool, eq_of_some htoken,
        hs.parametersContract⟩
    | setReputationContract admin address =>
      obtain ⟨p, hp', rfl⟩ := map_ok.mp h
      rw [adminSet_spec hp']
      exact ⟨eq_of_some hp, hs.vendorRegistry, hs.liquidityPool, hs.token, hs.parametersContract⟩
    | setVendorRegistry admin address =>
      obtain ⟨p, hp', rfl⟩ := map_ok.mp h
      rw [adminSet_spec hp']
      exact ⟨hs.reputationContract, eq_of_some hp, hs.liquidityPool, hs.token,
        hs.parametersContract⟩
    | setLiquidityPool admin address =>
      obtain ⟨p, hp', rfl⟩ := map_ok.mp h
      rw [adminSet_spec hp']
      exact ⟨hs.reputationContract, hs.vendorRegistry, eq_of_some hp, hs.token,
        hs.parametersContract⟩
    | setParametersContract admin address =>
      obtain ⟨p, hp', rfl⟩ := map_ok.mp h
      rw [adminSet_spec hp']
      exact ⟨hs.reputationContract, hs.vendorRegistry, hs.liquidityPool, hs.token, eq_of_some hp⟩
    | _ => exact hr.elim
  · obtain ⟨e, he⟩ := exec_effect hb h
    rw [he.addresses hr]
    exact hs

end Effects

end StepFi.CreditLine

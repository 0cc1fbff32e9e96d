import StepFi.CreditLine.Types
import StepFi.LiquidityPool.Contract

/-!
# The credit line contract

Its storage and entry points. The contracts it calls are a parameter: `Clients W`
is what the credit line sees of a world `W`, so that the same code runs against
the real pool and reputation contract and against an arbitrary environment.
-/

namespace StepFi.CreditLine

open Lib

/-! ## The contracts the credit line calls -/

/-- The calls the credit line makes, each at an address read from its storage.
`isActive` and `getParameters` go through `try_invoke_contract`: `none` is a
failed call. The parameters contract answers with the fields the credit line
unpacks. -/
structure Clients (W : Type) where
  /-- `env.current_contract_address()`. -/
  self : Address
  transfer : Env → (token source target : Address) → (amount : Int) → W → Except Failure W
  balance : (token account : Address) → W → Except Failure Int
  isActive : (registry vendor : Address) → W → Option Bool
  getParameters : (parameters : Address) → W → Option ProtocolParameters
  getScore : (reputation user : Address) → W → Except Failure Nat
  increaseScore : Env → (reputation updater user : Address) → (amount : Nat) → W →
    Except Failure W
  decreaseScore : Env → (reputation updater user : Address) → (amount : Nat) → W →
    Except Failure W
  getPoolStats : (pool : Address) → W → Except Failure LiquidityPool.PoolStats
  fundLoan : Env → (pool creditline merchant : Address) → (amount : Int) → W → Except Failure W
  receiveRepayment : Env → (pool creditline : Address) → (principal interest : Int) → W →
    Except Failure W
  receiveGuarantee : Env → (pool creditline : Address) → (amount : Int) → W → Except Failure W
  absorbLoss : Env → (pool creditline : Address) → (shortfall : Int) → W → Except Failure W

/-! ## Storage -/

/-- How many loan ids a page of a borrower's index holds. -/
abbrev pageSize : Nat := 32

/-- How many shards the loans are spread over. -/
abbrev loanShardCount : Nat := 32

/-- The contract's keys: an absent one is `none`, or the value its reader falls back to. -/
structure Storage where
  admin : Option Address
  reputationContract : Option Address
  vendorRegistry : Option Address
  liquidityPool : Option Address
  token : Option Address
  parametersContract : Option Address
  loanCounter : Nat
  /-- Keyed by shard and loan id. -/
  loans : Nat → Nat → Option Loan
  userLoanCount : Address → Nat
  userLoanPage : Address → Nat → Option (List Nat)
  /-- The index from before the pages, in persistent and in instance storage:
  read where a page is missing, never written. -/
  userLoanAt : Address → Nat → Option Nat
  userLoanAtInstance : Address → Nat → Option Nat
  userActiveDebt : Address → Int
  reentrancyLocked : Bool
  paused : Bool
  pendingUpgrade : Option PendingUpgrade
  version : Nat

/-- Storage as deployed: every key missing. -/
def Storage.empty : Storage where
  admin := none
  reputationContract := none
  vendorRegistry := none
  liquidityPool := none
  token := none
  parametersContract := none
  loanCounter := 0
  loans := fun _ _ => none
  userLoanCount := fun _ => 0
  userLoanPage := fun _ _ => none
  userLoanAt := fun _ _ => none
  userLoanAtInstance := fun _ _ => none
  userActiveDebt := fun _ => 0
  reentrancyLocked := false
  paused := false
  pendingUpgrade := none
  version := 1

/-- The credit line's storage beside the world of the other contracts. -/
structure State (W : Type) where
  line : Storage
  world : W

/-- The shard a loan is kept in. -/
def loanShard (loanId : Nat) : Nat := loanId % loanShardCount

/-- How many ids have been given out. -/
def getLoanCounter (p : Storage) : Nat := p.loanCounter

/-- Take the next id; the first is `1`. -/
def incrementLoanCounter (p : Storage) : Except Failure (Nat × Storage) := do
  let next ← checkedU64 (.creditLine .overflow) (getLoanCounter p + 1)
  return (next, { p with loanCounter := next })

/-- A stored loan, or `LoanNotFound`. -/
def readLoan (p : Storage) (loanId : Nat) : Except Failure Loan :=
  demand (p.loans (loanShard loanId) loanId) (.creditLine .loanNotFound)

/-- Add an id to the end of the borrower's index, on a new page when the last is full. -/
def appendUserLoanIndex (borrower : Address) (loanId : Nat) (p : Storage) :
    Except Failure Storage := do
  let count := p.userLoanCount borrower
  let pageNum := (count / pageSize) % 2 ^ 32
  let page := (p.userLoanPage borrower pageNum).getD []
  let pages := Function.update (p.userLoanPage borrower) pageNum (some (page ++ [loanId]))
  let nextCount ← checkedU64 (.creditLine .overflow) (count + 1)
  return { p with
    userLoanPage := Function.update p.userLoanPage borrower pages
    userLoanCount := Function.update p.userLoanCount borrower nextCount }

/-- Write a loan under its id, in its shard. -/
def setLoan (loan : Loan) (p : Storage) : Storage :=
  let shard := loanShard loan.loanId
  { p with
    loans := Function.update p.loans shard
      (Function.update (p.loans shard) loan.loanId (some loan)) }

/-- A new loan is also appended to its borrower's index. -/
def writeLoan (loan : Loan) (p : Storage) : Except Failure Storage :=
  if (p.loans (loanShard loan.loanId) loan.loanId).isNone then
    appendUserLoanIndex loan.borrower loan.loanId (setLoan loan p)
  else .ok (setLoan loan p)

/-- How many ids the borrower's index is said to hold. -/
def getUserLoanCount (p : Storage) (borrower : Address) : Nat := p.userLoanCount borrower

/-- The inner loop of the reader: the rest of a page, up to position `stop`. -/
def readPage (stop : Nat) : List Nat → Nat → List Nat → Nat × List Nat
  | [], idx, result => (idx, result)
  | loanId :: rest, idx, result =>
    if idx < stop then readPage stop rest (idx + 1) (result ++ [loanId]) else (idx, result)

/-- The outer loop, for `fuel` rounds: `none` is a reader still running, as on a
page that ends before `idx`. -/
def readPages (p : Storage) (borrower : Address) (stop : Nat) :
    (fuel : Nat) → (idx : Nat) → (result : List Nat) → Option (Except Failure (List Nat))
  | 0, _, _ => none
  | fuel + 1, idx, result =>
    if idx < stop then
      let pageNum := (idx / pageSize) % 2 ^ 32
      let pageOffset := idx % pageSize
      match p.userLoanPage borrower pageNum with
      | some page =>
        let read := readPage stop (page.drop pageOffset) idx result
        readPages p borrower stop fuel read.1 read.2
      | none =>
        match (p.userLoanAt borrower idx).or (p.userLoanAtInstance borrower idx) with
        | some loanId => readPages p borrower stop fuel (idx + 1) (result ++ [loanId])
        | none => some (.error (.creditLine .loanNotFound))
    else some (.ok result)

/-- The minimum with `2 ^ 64 - 1` is `saturating_add`. -/
def getUserLoanIdsPaginated (p : Storage) (borrower : Address) (start limit fuel : Nat) :
    Option (Except Failure (List Nat)) :=
  let total := getUserLoanCount p borrower
  if limit = 0 ∨ total ≤ start then some (.ok [])
  else
    let stop := min (min (start + limit) (2 ^ 64 - 1)) total
    readPages p borrower stop fuel start []

/-- The loans behind a slice of the index; one that is missing fails the read. -/
def getUserLoansPaginated (p : Storage) (borrower : Address) (start limit fuel : Nat) :
    Option (Except Failure (List Loan)) :=
  (getUserLoanIdsPaginated p borrower start limit fuel).map fun read => do
    let loanIds ← read
    loanIds.mapM (readLoan p)

/-- The public reader of the page. -/
def getUserLoans (p : Storage) (borrower : Address) (start limit fuel : Nat) :
    Option (Except Failure (List Loan)) :=
  getUserLoansPaginated p borrower start limit fuel

/-- What the borrower owes on active loans. -/
def getUserActiveDebt (p : Storage) (borrower : Address) : Int := p.userActiveDebt borrower

/-- Write a borrower's debt. -/
def setUserActiveDebt (borrower : Address) (debt : Int) (p : Storage) : Storage :=
  { p with userActiveDebt := Function.update p.userActiveDebt borrower debt }

/-- The debt grows, or `Overflow`. -/
def increaseUserActiveDebt (borrower : Address) (amount : Int) (p : Storage) :
    Except Failure Storage := do
  let next ← checkedI128 (.creditLine .overflow) (getUserActiveDebt p borrower + amount)
  return setUserActiveDebt borrower next p

/-- The debt falls; it may go below zero, `Underflow` is the lower end of `i128`. -/
def decreaseUserActiveDebt (borrower : Address) (amount : Int) (p : Storage) :
    Except Failure Storage := do
  let next ← checkedI128 (.creditLine .underflow) (getUserActiveDebt p borrower - amount)
  return setUserActiveDebt borrower next p

/-! ## Checked arithmetic of the credit line -/

/-- `checked_add` with the contract's `Overflow`. -/
def addI128 (a b : Int) : Except Failure Int := checkedI128 (.creditLine .overflow) (a + b)

/-- `checked_sub` with the contract's `Underflow`. -/
def subI128 (a b : Int) : Except Failure Int := checkedI128 (.creditLine .underflow) (a - b)

/-- `checked_mul` with the contract's `Overflow`. -/
def mulI128 (a b : Int) : Except Failure Int := checkedI128 (.creditLine .overflow) (a * b)

/-- `checked_div`: a division by zero is an `Overflow` too. -/
def divI128 (a b : Int) : Except Failure Int := checkedDivI128 (.creditLine .overflow) a b

/-- `checked_add` on `u64`. -/
def addU64 (a b : Nat) : Except Failure Nat := checkedU64 (.creditLine .overflow) (a + b)

def subU64 (a b : Nat) : Except Failure Nat := checkedU64 (.creditLine .underflow) (a - b)

def mulU64 (a b : Nat) : Except Failure Nat := checkedU64 (.creditLine .overflow) (a * b)

/-! ## Guards -/

/-- The admin, `NotInitialized` before `initialize`. -/
def getAdmin (p : Storage) : Except Failure Address := demand p.admin (.creditLine .notInitialized)

/-- The caller is the stored admin; that it signed is asked elsewhere. -/
def requireAdmin (p : Storage) (caller : Address) : Except Failure Unit := do
  let admin ← getAdmin p
  ensure (caller = admin) (.creditLine .notAdmin)

/-- Refuse the call while the contract is paused. -/
def requireNotPaused (p : Storage) : Except Failure Unit :=
  ensure (p.paused = false) (.creditLine .contractPaused)

/-- Take the lock, or `ReentrancyDetected`. -/
def enterNonReentrant (p : Storage) : Except Failure Storage := do
  ensure (p.reentrancyLocked = false) (.creditLine .reentrancyDetected)
  return { p with reentrancyLocked := true }

/-- Release the lock. -/
def exitNonReentrant (p : Storage) : Storage := { p with reentrancyLocked := false }

/-! ## Late fees -/

/-- The earliest due date before `now`, paid or not. -/
def overdueSince (now : Nat) (schedule : List RepaymentInstallment) : Option Nat :=
  schedule.foldl
    (fun earliest installment =>
      if installment.dueDate < now then
        some (match earliest with
          | none => installment.dueDate
          | some d => if installment.dueDate < d then installment.dueDate else d)
      else earliest)
    none

/-- Accrual starts at the later of the first overdue date and the last accrual. -/
def accrualStart (loan : Loan) (since : Nat) : Nat :=
  if loan.lateFeeAccrualTimestamp = 0 then since
  else if since < loan.lateFeeAccrualTimestamp then loan.lateFeeAccrualTimestamp
  else since

/-- A newly accrued fee and the loan that owes it. -/
structure Accrual where
  fee : Int
  loan : Loan

/-- The fee for the complete days overdue since the last accrual, and the loan it is
added to. The fee is taken of the whole remaining balance. -/
def accrueLateFeesInternal (now : Nat) (loan : Loan) : Except Failure Accrual :=
  match overdueSince now loan.repaymentSchedule with
  | none => .ok ⟨0, loan⟩
  | some since =>
    let start := accrualStart loan since
    if now ≤ start then .ok ⟨0, loan⟩
    else do
      let secondsElapsed ← subU64 now start
      let daysElapsed ← divI128 secondsElapsed secondsPerDay
      if daysElapsed = 0 then .ok ⟨0, loan⟩
      else do
        let scaled ← mulI128 loan.remainingBalance lateFeeBpsPerDay
        let scaledDays ← mulI128 scaled daysElapsed
        let fee := (divI128 scaledDays bpsDenominator).toOption.getD 0
        if fee = 0 then .ok ⟨0, loan⟩
        else do
          -- only complete days advance the cursor
          let charged ← mulU64 daysElapsed.toNat secondsPerDay
          let timestamp ← addU64 start charged
          let lateFees ← addI128 loan.lateFeesOutstanding fee
          let remaining ← addI128 loan.remainingBalance fee
          return ⟨fee, { loan with
            lateFeeAccrualTimestamp := timestamp
            lateFeesOutstanding := lateFees
            remainingBalance := remaining }⟩

/-- `active_debt` grows by what accrued, when anything did. -/
def addAccruedFee (borrower : Address) (fee : Int) (p : Storage) : Except Failure Storage :=
  if 0 < fee then increaseUserActiveDebt borrower fee p else .ok p

/-! ## The repayment waterfall -/

/-- How an amount is spread over the four buckets of a loan. -/
structure RepaymentAllocation where
  lateFeePaid : Int
  interestPaid : Int
  serviceFeePaid : Int
  principalPaid : Int

/-- An allocation and the loan it was taken off. -/
structure Waterfall where
  allocation : RepaymentAllocation
  loan : Loan

/-- Spread an amount over late fees, interest, service fee and principal, in this order. -/
def applyWaterfall (loan : Loan) (amount : Int) : Except Failure Waterfall := do
  let lateFeePaid := min amount loan.lateFeesOutstanding
  let afterLate ← subI128 amount lateFeePaid
  let interestPaid := min afterLate loan.interestOutstanding
  let afterInterest ← subI128 afterLate interestPaid
  let serviceFeePaid := min afterInterest loan.serviceFeeOutstanding
  let afterFee ← subI128 afterInterest serviceFeePaid
  let principalPaid := min afterFee loan.principalOutstanding
  let lateFees ← subI128 loan.lateFeesOutstanding lateFeePaid
  let interest ← subI128 loan.interestOutstanding interestPaid
  let serviceFee ← subI128 loan.serviceFeeOutstanding serviceFeePaid
  let principal ← subI128 loan.principalOutstanding principalPaid
  let remaining ← subI128 loan.remainingBalance amount
  return {
    allocation := { lateFeePaid, interestPaid, serviceFeePaid, principalPaid }
    loan := { loan with
      lateFeesOutstanding := lateFees
      interestOutstanding := interest
      serviceFeeOutstanding := serviceFee
      principalOutstanding := principal
      remainingBalance := remaining } }

/-! ## Credit limits and rates -/

/-- The debt a score allows, in four tiers. -/
def creditLimit (score : Nat) : Int :=
  if 90 ≤ score then 10000 else if 75 ≤ score then 5000 else if 60 ≤ score then 2500 else 1000

section Calls

variable {W : Type} (c : Clients W)

/-- The governed parameters; the defaults when no contract is set or its call fails. -/
def getProtocolParameters (p : Storage) (w : W) : ProtocolParameters :=
  match p.parametersContract with
  | some address => (c.getParameters address w).getD defaultProtocolParameters
  | none => defaultProtocolParameters

/-- Natural subtraction is `saturating_sub`. -/
def interestRateBps (p : Storage) (w : W) (score : Nat) : Nat :=
  let base := (getProtocolParameters c p w).baseInterestBps
  if base = 0 then
    if 90 ≤ score then 400 else if 75 ≤ score then 600 else if 60 ≤ score then 800 else 1000
  else
    if 90 ≤ score then base - 600
    else if 75 ≤ score then base - 400
    else if 60 ≤ score then base - 200
    else base

/-- `bps` hundredths of a percent of `base`, rounded toward zero. -/
def calculateBpsAmount (base bps : Int) : Except Failure Int := do
  let scaled ← mulI128 base bps
  divI128 scaled bpsDenominator

/-- What a default costs in score: more above the large-loan threshold. -/
def calculateDefaultPenalty (p : Storage) (w : W) (loan : Loan) : Nat :=
  let params := getProtocolParameters c p w
  if params.largeLoanThreshold < loan.totalAmount then params.largeLoanDefaultPenalty
  else params.defaultPenalty

/-! ## Validation -/

/-- Both amounts positive, and the guarantee at most the total and at least the governed
percentage of it. -/
def validateGuarantee (p : Storage) (w : W) (totalAmount guaranteeAmount : Int) :
    Except Failure Unit := do
  ensure (0 < totalAmount ∧ 0 < guaranteeAmount) (.creditLine .invalidAmount)
  ensure (guaranteeAmount ≤ totalAmount) (.creditLine .invalidAmount)
  let params := getProtocolParameters c p w
  let scaled ← mulI128 totalAmount params.minGuaranteePercent
  let minGuarantee ← divI128 scaled 100
  ensure (minGuarantee ≤ guaranteeAmount) (.creditLine .insufficientGuarantee)

/-- The vendor has to be active in a registry that answers. -/
def validateVendor (p : Storage) (w : W) (vendor : Address) : Except Failure Unit := do
  let registry ← demand p.vendorRegistry (.creditLine .invalidVendor)
  let isActive ← demand (c.isActive registry vendor w) (.creditLine .vendorValidationFailed)
  ensure (isActive = true) (.creditLine .vendorNotActive)

/-- The borrower's score, once it reaches the governed threshold. -/
def validateReputation (p : Storage) (w : W) (user : Address) : Except Failure Nat := do
  let reputation ← demand p.reputationContract (.creditLine .parametersUnavailable)
  let score ← c.getScore reputation user w
  let params := getProtocolParameters c p w
  ensure (params.minReputationThreshold ≤ score) (.creditLine .insufficientReputation)
  return score

/-- The pool can lend its part now; a loan covered by its guarantee needs none. -/
def validateLiquidity (p : Storage) (w : W) (totalAmount guaranteeAmount : Int) :
    Except Failure Unit := do
  let pool ← demand p.liquidityPool (.creditLine .insufficientLiquidity)
  let requiredFromPool ← subI128 totalAmount guaranteeAmount
  if requiredFromPool = 0 then .ok ()
  else do
    let stats ← c.getPoolStats pool w
    ensure (requiredFromPool ≤ stats.availableLiquidity) (.creditLine .insufficientLiquidity)

/-! ## Lending -/

/-- The guarantee is pulled from the borrower unless it was at request time. -/
def pullGuarantee (env : Env) (p : Storage) (borrower : Address) (guaranteeAmount : Int)
    (w : W) : Except Failure W := do
  let token ← demand p.token (.creditLine .tokenNotConfigured)
  c.transfer env token borrower c.self guaranteeAmount w

/-- Collect the guarantee where `pull` says so, and have the pool pay the vendor the rest. -/
def fundLoanFromPool (env : Env) (p : Storage) (borrower vendor : Address)
    (guaranteeAmount poolContribution : Int) (pull : Bool) (w : W) : Except Failure W := do
  let pool ← demand p.liquidityPool (.creditLine .insufficientLiquidity)
  let w ← (if pull then pullGuarantee c env p borrower guaranteeAmount w else .ok w)
  if 0 < poolContribution then
    c.fundLoan (env.callFrom c.self []) pool c.self vendor poolContribution w
  else .ok w

/-- What a borrower asks for. -/
structure LoanRequest where
  user : Address
  vendor : Address
  totalAmount : Int
  guaranteeAmount : Int
  repaymentSchedule : List RepaymentInstallment
  loanType : LoanType

/-- The new loan, with the counter its id was taken from. -/
def buildLoan (env : Env) (r : LoanRequest) (score : Nat) (status : LoanStatus) (p : Storage)
    (w : W) : Except Failure (Loan × Storage) := do
  validateGuarantee c p w r.totalAmount r.guaranteeAmount
  validateVendor c p w r.vendor
  let rate := interestRateBps c p w score
  let interestAmount ← calculateBpsAmount r.totalAmount rate
  let serviceFeeAmount ← calculateBpsAmount r.totalAmount serviceFeeBps
  let withInterest ← addI128 r.totalAmount interestAmount
  let remainingBalance ← addI128 withInterest serviceFeeAmount
  let nextDebt ← addI128 (getUserActiveDebt p r.user) remainingBalance
  ensure (nextDebt ≤ creditLimit score) (.creditLine .exposureLimitExceeded)
  let next ← incrementLoanCounter p
  return ({
    loanId := next.1
    borrower := r.user
    vendor := r.vendor
    totalAmount := r.totalAmount
    guaranteeAmount := r.guaranteeAmount
    interestRateBps := rate
    interestAmount
    serviceFeeAmount
    principalOutstanding := r.totalAmount
    interestOutstanding := interestAmount
    serviceFeeOutstanding := serviceFeeAmount
    remainingBalance
    repaymentSchedule := r.repaymentSchedule
    status
    loanType := r.loanType
    createdAt := env.timestamp
    fundedAt := 0
    lateFeesOutstanding := 0
    lateFeeAccrualTimestamp := 0 }, next.2)

/-- Open a loan at once: it is active when the call returns. The schedule is not checked. -/
def createLoan (env : Env) (r : LoanRequest) (s : State W) : Except Failure (Nat × State W) := do
  requireAuth env r.user
  requireNotPaused s.line
  validateGuarantee c s.line s.world r.totalAmount r.guaranteeAmount
  validateVendor c s.line s.world r.vendor
  let score ← validateReputation c s.line s.world r.user
  validateLiquidity c s.line s.world r.totalAmount r.guaranteeAmount
  let line ← enterNonReentrant s.line
  let built ← buildLoan c env r score .active line s.world
  let loan := { built.1 with fundedAt := env.timestamp }
  let line ← increaseUserActiveDebt r.user loan.remainingBalance built.2
  let line ← writeLoan loan line
  let poolContribution ← subI128 r.totalAmount r.guaranteeAmount
  let w ← fundLoanFromPool c env line r.user r.vendor r.guaranteeAmount poolContribution true
    s.world
  return (loan.loanId, ⟨exitNonReentrant line, w⟩)

/-- File a loan for approval. The guarantee is collected now; vendor and score are checked
now and again at approval. -/
def requestLoan (env : Env) (r : LoanRequest) (s : State W) : Except Failure (Nat × State W) := do
  requireAuth env r.user
  requireNotPaused s.line
  validateGuarantee c s.line s.world r.totalAmount r.guaranteeAmount
  let score ← validateReputation c s.line s.world r.user
  let built ← buildLoan c env r score .pending s.line s.world
  let w ← pullGuarantee c env built.2 r.user r.guaranteeAmount s.world
  let line ← writeLoan built.1 built.2
  return (built.1.loanId, ⟨line, w⟩)

/-- The admin's approval activates a pending loan. The credit limit was checked when it
was requested, and is not again. -/
def approveLoan (env : Env) (loanId : Nat) (s : State W) : Except Failure (Loan × State W) := do
  let admin ← getAdmin s.line
  requireAuth env admin
  requireNotPaused s.line
  let loan ← readLoan s.line loanId
  ensure (loan.status = .pending) (.creditLine .invalidLoanStatus)
  ensure (loan.repaymentSchedule ≠ []) (.creditLine .invalidDueDate)
  ensure (∀ i ∈ loan.repaymentSchedule, ¬(i.dueDate = 0 ∨ i.dueDate ≤ env.timestamp))
    (.creditLine .invalidDueDate)
  validateVendor c s.line s.world loan.vendor
  let _ ← validateReputation c s.line s.world loan.borrower
  validateLiquidity c s.line s.world loan.totalAmount loan.guaranteeAmount
  let line ← enterNonReentrant s.line
  let loan := { loan with status := .active, fundedAt := env.timestamp }
  let line ← increaseUserActiveDebt loan.borrower loan.remainingBalance line
  let poolContribution ← subI128 loan.totalAmount loan.guaranteeAmount
  let w ← fundLoanFromPool c env line loan.borrower loan.vendor loan.guaranteeAmount
    poolContribution false s.world
  let line ← writeLoan loan line
  return (loan, ⟨exitNonReentrant line, w⟩)

/-- The borrower or the admin gives up a pending loan, and the guarantee goes back. -/
def cancelLoan (env : Env) (caller : Address) (loanId : Nat) (s : State W) :
    Except Failure (State W) := do
  requireAuth env caller
  requireNotPaused s.line
  let loan ← readLoan s.line loanId
  ensure (loan.status = .pending) (.creditLine .loanNotCancellable)
  let admin ← getAdmin s.line
  ensure (caller = loan.borrower ∨ caller = admin) (.creditLine .unauthorizedRepayer)
  let token ← demand s.line.token (.creditLine .tokenNotConfigured)
  let contractBalance ← c.balance token c.self s.world
  ensure (loan.guaranteeAmount ≤ contractBalance) (.creditLine .insufficientRefundBalance)
  let line ← enterNonReentrant s.line
  let line ← writeLoan { loan with status := .cancelled } line
  let w ← (if 0 < loan.guaranteeAmount then
      c.transfer env token c.self loan.borrower loan.guaranteeAmount s.world
    else .ok s.world)
  return ⟨exitNonReentrant line, w⟩

/-! ## Repayment -/

/-- Early payers earn `15` points, others `10`; a failed update reverts the
whole repayment. -/
def handleReputationIncrease (env : Env) (reputation borrower : Address) (dueDate : Nat) (w : W) :
    Except Failure W :=
  let scoreIncrease := if env.timestamp < dueDate then 15 else 10
  match c.increaseScore (env.callFrom c.self []) reputation c.self borrower scoreIncrease w with
  | .ok w => .ok w
  | .error _ => .error (.creditLine .reputationCallFailed)

/-- The date of the last listed installment, `0` without any. -/
def lastDueDate (loan : Loan) : Nat := (loan.repaymentSchedule.getLast?.map (·.dueDate)).getD 0

/-- Without a reputation contract the reward is skipped. -/
def rewardRepayment (env : Env) (p : Storage) (borrower : Address) (loan : Loan) (w : W) :
    Except Failure W :=
  match p.reputationContract with
  | some reputation => handleReputationIncrease c env reputation borrower (lastDueDate loan) w
  | none => .ok w

/-- The token flow of a repayment: the amount goes through the credit line to
the pool; a loan with nothing left to pay gets its guarantee back, and its
borrower the reward. -/
def forwardRepayment (env : Env) (p : Storage) (borrower : Address) (amount : Int)
    (allocation : RepaymentAllocation) (loan : Loan) (w : W) : Except Failure W := do
  let pool ← demand p.liquidityPool (.creditLine .insufficientLiquidity)
  let token ← demand p.token (.creditLine .tokenNotConfigured)
  let w ← c.transfer env token borrower c.self amount w
  let interestAndService ← addI128 allocation.interestPaid allocation.serviceFeePaid
  let interestFeeLate ← addI128 interestAndService allocation.lateFeePaid
  let w ← c.receiveRepayment (env.callFrom c.self [⟨token, c.self, pool, amount⟩]) pool c.self
    allocation.principalPaid interestFeeLate w
  if loan.remainingBalance = 0 then do
    let w ← c.transfer env token c.self borrower loan.guaranteeAmount w
    rewardRepayment c env p borrower loan w
  else .ok w

/-- A repayment path's schedule update, and the closing of a loan with nothing
left to pay. -/
def closeLoan (mark : List RepaymentInstallment → List RepaymentInstallment) (loan : Loan) : Loan :=
  let marked := { loan with repaymentSchedule := mark loan.repaymentSchedule }
  if loan.remainingBalance = 0 then { marked with status := .paid } else marked

/-- The body `repay_loan` and `repay_installment` share: `check` is what a path
requires of the loan before fees accrue, `mark` what it writes to the schedule.
There is no pause check. -/
def settle (env : Env) (borrower : Address) (loanId : Nat) (amount : Int)
    (check : Loan → Except Failure Unit)
    (mark : List RepaymentInstallment → List RepaymentInstallment) (s : State W) :
    Except Failure (Int × State W) := do
  requireAuth env borrower
  let loan ← readLoan s.line loanId
  ensure (loan.borrower = borrower) (.creditLine .unauthorizedRepayer)
  ensure (loan.status = .active) (.creditLine .loanNotActive)
  check loan
  let accrued ← accrueLateFeesInternal env.timestamp loan
  let line ← addAccruedFee borrower accrued.fee s.line
  ensure (0 < amount ∧ amount ≤ accrued.loan.remainingBalance)
    (.creditLine .invalidRepaymentAmount)
  let line ← enterNonReentrant line
  let paid ← applyWaterfall accrued.loan amount
  let loan := closeLoan mark paid.loan
  let line ← decreaseUserActiveDebt borrower amount line
  let line ← writeLoan loan line
  let w ← forwardRepayment c env line borrower amount paid.allocation loan s.world
  return (loan.remainingBalance, ⟨exitNonReentrant line, w⟩)

/-- Pay any part of the balance, without reference to an installment. -/
def repayLoan (env : Env) (borrower : Address) (loanId : Nat) (amount : Int) (s : State W) :
    Except Failure (Int × State W) :=
  settle c env borrower loanId amount (fun _ => .ok ()) id s

/-- The installment must be in range and unpaid. -/
def checkInstallment (index : Nat) (loan : Loan) : Except Failure Unit := do
  let installment ← demand loan.repaymentSchedule[index]? (.creditLine .invalidInstallmentIndex)
  ensure (installment.paid = false) (.creditLine .installmentAlreadyPaid)

/-- One installment marked as paid at `now`. -/
def markInstallment (now index : Nat) (schedule : List RepaymentInstallment) :
    List RepaymentInstallment :=
  schedule.modify index fun i => { i with paid := true, paidAt := now }

/-- Pay any part of the balance in the name of one installment, which is then marked. -/
def repayInstallment (env : Env) (borrower : Address) (loanId index : Nat) (amount : Int)
    (s : State W) : Except Failure (Int × State W) :=
  settle c env borrower loanId amount (checkInstallment index)
    (markInstallment env.timestamp index) s

/-- Anyone may accrue an active loan's late fees. -/
def applyLateFees (env : Env) (loanId : Nat) (s : State W) : Except Failure (State W) := do
  let loan ← readLoan s.line loanId
  ensure (loan.status = .active) (.creditLine .loanNotActive)
  let accrued ← accrueLateFeesInternal env.timestamp loan
  if accrued.fee = 0 then .ok s
  else do
    let line ← increaseUserActiveDebt loan.borrower accrued.fee s.line
    let line ← writeLoan accrued.loan line
    return { s with line := line }

/-! ## Default -/

/-- The grace window of an overdue loan, up to the check that decides between a
warning and a default. -/
def graceEndsAt (now : Nat) (p : Storage) (w : W) (loan : Loan) : Except Failure Nat := do
  let last ← demand loan.repaymentSchedule.getLast? (.creditLine .overflow)
  ensure (last.dueDate < now) (.creditLine .loanNotOverdue)
  addU64 last.dueDate (getProtocolParameters c p w).gracePeriodSeconds

/-- Tell of a loan overdue but still within its grace window; nothing is stored. -/
def warnGracePeriod (env : Env) (loanId : Nat) (s : State W) : Except Failure Unit := do
  requireNotPaused s.line
  let loan ← readLoan s.line loanId
  ensure (loan.status = .active) (.creditLine .loanNotActive)
  let ends ← graceEndsAt c env.timestamp s.line s.world loan
  ensure (env.timestamp ≤ ends) (.creditLine .loanNotOverdue)

/-- `checked_sub(..).unwrap_or(0)`. -/
def principalShortfall (loan : Loan) : Int :=
  (subI128 loan.principalOutstanding loan.guaranteeAmount).toOption.getD 0

/-- A failed update reverts the whole default; without a reputation contract
the penalty is skipped. -/
def penalizeDefault (env : Env) (p : Storage) (loan : Loan) (w : W) : Except Failure W :=
  match p.reputationContract with
  | some reputation =>
    let penalty := calculateDefaultPenalty c p w loan
    match c.decreaseScore (env.callFrom c.self []) reputation c.self loan.borrower penalty w with
    | .ok w => .ok w
    | .error _ => .error (.creditLine .reputationCallFailed)
  | none => .ok w

/-- The calls of a default: the guarantee goes to the pool, which writes off the
shortfall, and the borrower's score is lowered. -/
def realizeDefault (env : Env) (p : Storage) (pool : Address) (loan : Loan) (w : W) :
    Except Failure W := do
  let token ← demand p.token (.creditLine .tokenNotConfigured)
  let w ← c.receiveGuarantee
    (env.callFrom c.self [⟨token, c.self, pool, loan.guaranteeAmount⟩]) pool c.self
    loan.guaranteeAmount w
  let w ← (if 0 < principalShortfall loan then
      c.absorbLoss (env.callFrom c.self []) pool c.self (principalShortfall loan) w
    else .ok w)
  penalizeDefault c env p loan w

/-- Anyone may close an overdue loan once its grace window has ended. -/
def markDefaulted (env : Env) (loanId : Nat) (s : State W) : Except Failure (State W) := do
  requireNotPaused s.line
  let loan ← readLoan s.line loanId
  ensure (loan.status = .active) (.creditLine .loanNotActive)
  let ends ← graceEndsAt c env.timestamp s.line s.world loan
  ensure (ends < env.timestamp) (.creditLine .loanInGracePeriod)
  let pool ← demand s.line.liquidityPool (.creditLine .insufficientLiquidity)
  let line ← enterNonReentrant s.line
  let loan := { loan with status := .defaulted }
  let line ← decreaseUserActiveDebt loan.borrower loan.remainingBalance line
  let line ← writeLoan loan line
  let w ← realizeDefault c env line pool loan s.world
  return ⟨exitNonReentrant line, w⟩

/-! ## Administration -/

/-- Set the admin and the four contracts, once; a second call panics. -/
def initializeContract (env : Env) (admin reputationContract vendorRegistry liquidityPool
    token : Address) (p : Storage) : Except Failure Storage := do
  ensure (p.admin = none) .panic
  requireAuth env admin
  return { p with
    admin := some admin
    reputationContract := some reputationContract
    vendorRegistry := some vendorRegistry
    liquidityPool := some liquidityPool
    token := some token }

/-- The admin hands over to another. -/
def setAdmin (env : Env) (newAdmin : Address) (p : Storage) : Except Failure Storage := do
  let oldAdmin ← getAdmin p
  requireAuth env oldAdmin
  requireAdmin p oldAdmin
  return { p with admin := some newAdmin }

/-- The shape of the setters that take the admin as an argument. -/
def adminSet (env : Env) (admin : Address) (write : Storage → Storage) (p : Storage) :
    Except Failure Storage := do
  requireAuth env admin
  requireAdmin p admin
  return write p

/-- The contract that scores are read from and written to. -/
def setReputationContract (env : Env) (admin address : Address) (p : Storage) :
    Except Failure Storage :=
  adminSet env admin (fun p => { p with reputationContract := some address }) p

/-- The registry that vendors are looked up in. -/
def setVendorRegistry (env : Env) (admin address : Address) (p : Storage) :
    Except Failure Storage :=
  adminSet env admin (fun p => { p with vendorRegistry := some address }) p

/-- The pool that lends and is repaid. -/
def setLiquidityPool (env : Env) (admin address : Address) (p : Storage) :
    Except Failure Storage :=
  adminSet env admin (fun p => { p with liquidityPool := some address }) p

/-- The contract the governed parameters are read from. -/
def setParametersContract (env : Env) (admin address : Address) (p : Storage) :
    Except Failure Storage :=
  adminSet env admin (fun p => { p with parametersContract := some address }) p

/-- Stop the entry points that ask for it; repayments do not. -/
def pause (env : Env) (admin : Address) (p : Storage) : Except Failure Storage :=
  adminSet env admin (fun p => { p with paused := true }) p

def unpause (env : Env) (admin : Address) (p : Storage) : Except Failure Storage :=
  adminSet env admin (fun p => { p with paused := false }) p

/-! ## Upgrades -/

/-- The contract's own errors for the shared upgrade steps. -/
def upgradeErrors : UpgradeErrors where
  overflow := .creditLine .overflow
  notProposed := .creditLine .upgradeNotProposed
  hashMismatch := .creditLine .upgradeHashMismatch
  timelockNotMet := .creditLine .upgradeTimelockNotMet

/-- The admin proposes code to swap in when the governed delay has passed. -/
def proposeUpgrade (env : Env) (newWasmHash : WasmHash) (s : State W) :
    Except Failure Storage := do
  let admin ← getAdmin s.line
  requireAuth env admin
  let params := getProtocolParameters c s.line s.world
  let delay := upgradeDelay params.upgradeDelaySeconds
  let pending ← PendingUpgrade.propose upgradeErrors env delay newWasmHash
  return { s.line with pendingUpgrade := some pending }

/-- The admin swaps in the proposed code once its time has come. -/
def executeUpgrade (env : Env) (newWasmHash : WasmHash) (p : Storage) :
    Except Failure Storage := do
  let admin ← getAdmin p
  requireAuth env admin
  let newVersion ← PendingUpgrade.execute upgradeErrors env newWasmHash p.pendingUpgrade p.version
  updateCurrentContractWasm env newWasmHash
  return { p with version := newVersion, pendingUpgrade := none }

/-- The same call under its other name. -/
def upgrade (env : Env) (newWasmHash : WasmHash) (p : Storage) : Except Failure Storage :=
  executeUpgrade env newWasmHash p

/-! ## Calls -/

/-- The entry points that write. -/
inductive Call where
  | initializeContract (admin reputationContract vendorRegistry liquidityPool token : Address)
  | setAdmin (newAdmin : Address)
  | setReputationContract (admin address : Address)
  | setVendorRegistry (admin address : Address)
  | setLiquidityPool (admin address : Address)
  | setParametersContract (admin address : Address)
  | pause (admin : Address)
  | unpause (admin : Address)
  | proposeUpgrade (newWasmHash : WasmHash)
  | executeUpgrade (newWasmHash : WasmHash)
  | upgrade (newWasmHash : WasmHash)
  | createLoan (request : LoanRequest)
  | requestLoan (request : LoanRequest)
  | approveLoan (loanId : Nat)
  | cancelLoan (caller : Address) (loanId : Nat)
  | repayLoan (borrower : Address) (loanId : Nat) (amount : Int)
  | repayInstallment (borrower : Address) (loanId index : Nat) (amount : Int)
  | applyLateFees (loanId : Nat)
  | warnGracePeriod (loanId : Nat)
  | markDefaulted (loanId : Nat)

/-- A call on the storage alone. -/
def State.lift (s : State W) (r : Except Failure Storage) : Except Failure (State W) :=
  r.map fun p => { s with line := p }

/-- What a call does to the contract and the world. -/
def exec (env : Env) (call : Call) (s : State W) : Except Failure (State W) :=
  match call with
  | .initializeContract admin reputation registry pool token =>
    s.lift (initializeContract env admin reputation registry pool token s.line)
  | .setAdmin newAdmin => s.lift (setAdmin env newAdmin s.line)
  | .setReputationContract admin address => s.lift (setReputationContract env admin address s.line)
  | .setVendorRegistry admin address => s.lift (setVendorRegistry env admin address s.line)
  | .setLiquidityPool admin address => s.lift (setLiquidityPool env admin address s.line)
  | .setParametersContract admin address => s.lift (setParametersContract env admin address s.line)
  | .pause admin => s.lift (pause env admin s.line)
  | .unpause admin => s.lift (unpause env admin s.line)
  | .proposeUpgrade newWasmHash => s.lift (proposeUpgrade c env newWasmHash s)
  | .executeUpgrade newWasmHash => s.lift (executeUpgrade env newWasmHash s.line)
  | .upgrade newWasmHash => s.lift (upgrade env newWasmHash s.line)
  | .createLoan request => (createLoan c env request s).map Prod.snd
  | .requestLoan request => (requestLoan c env request s).map Prod.snd
  | .approveLoan loanId => (approveLoan c env loanId s).map Prod.snd
  | .cancelLoan caller loanId => cancelLoan c env caller loanId s
  | .repayLoan borrower loanId amount => (repayLoan c env borrower loanId amount s).map Prod.snd
  | .repayInstallment borrower loanId index amount =>
    (repayInstallment c env borrower loanId index amount s).map Prod.snd
  | .applyLateFees loanId => applyLateFees env loanId s
  | .warnGracePeriod loanId => (warnGracePeriod c env loanId s).map fun _ => s
  | .markDefaulted loanId => markDefaulted c env loanId s

end Calls

end StepFi.CreditLine

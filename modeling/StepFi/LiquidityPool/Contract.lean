import StepFi.Token
import StepFi.Upgrade
import StepFi.Encoding
import Mathlib.Data.Int.Basic

/-!
# The liquidity pool contract

The pool's storage and entry points. Calls act on the pool's storage and the
token's ledger together (`State`). `is_active` of the vendor registry is a
parameter `active`: the answer of the registry contract, `none` when the call
fails.
-/

namespace StepFi.LiquidityPool

open Lib

/-! ## Constants -/

/-- The providers' part of interest. -/
abbrev lpFeeBps : Int := 8500

/-- The treasury's part of interest. -/
abbrev protocolFeeBps : Int := 1000

/-- The whole, in basis points. -/
abbrev totalBps : Int := 10000

/-- The scale of the price: `10000` is one token a share. -/
abbrev sharePricePrecision : Int := 10000

/-- The least deposit. -/
abbrev minAmount : Int := 1000

/-- The shares the first deposit seeds for no one. -/
abbrev deadSharesAmount : Int := 1000

/-! ## Storage -/

/-- The contract's keys, an absent one as its reader sees it. -/
structure Storage where
  admin : Option Address
  token : Option Address
  creditline : Option Address
  treasury : Option Address
  merchantFund : Option Address
  vendorRegistry : Option Address
  totalShares : Int
  totalLiquidity : Int
  lockedLiquidity : Int
  lpShares : Address → Int
  outflowCapBps : Nat
  outflowSeq : Nat
  outflowUsed : Int
  merchantExposureCap : Int
  merchantFunded : Address → Int
  reentrancyLocked : Bool
  paused : Bool
  parametersContract : Option Address
  pendingUpgrade : Option PendingUpgrade
  version : Nat

/-- Storage as deployed: every key missing, read through its default. -/
def Storage.empty : Storage where
  admin := none
  token := none
  creditline := none
  treasury := none
  merchantFund := none
  vendorRegistry := none
  totalShares := 0
  totalLiquidity := 0
  lockedLiquidity := 0
  lpShares := fun _ => 0
  outflowCapBps := 0
  outflowSeq := 0
  outflowUsed := 0
  merchantExposureCap := 0
  merchantFunded := fun _ => 0
  reentrancyLocked := false
  paused := false
  parametersContract := none
  pendingUpgrade := none
  version := 1

/-- The pool beside the ledger of its token. -/
structure State where
  pool : Storage
  token : Token

/-- The admin, `NotInitialized` before `initialize`. -/
def getAdmin (p : Storage) : Except Failure Address := demand p.admin (.pool .notInitialized)

/-- The token the pool holds, `NotInitialized` before `initialize`. -/
def getToken (p : Storage) : Except Failure Address := demand p.token (.pool .notInitialized)

/-! ## Checked arithmetic of the pool -/

/-- `checked_add` with the pool's `Overflow`. -/
def addI128 (a b : Int) : Except Failure Int := checkedI128 (.pool .overflow) (a + b)

/-- `checked_sub` with the pool's `Underflow`: the lower end of `i128`, not zero. -/
def subI128 (a b : Int) : Except Failure Int := checkedI128 (.pool .underflow) (a - b)

/-- `checked_mul` with the pool's `Overflow`. -/
def mulI128 (a b : Int) : Except Failure Int := checkedI128 (.pool .overflow) (a * b)

/-- `checked_div`: a division by zero is an `Overflow` too. -/
def divI128 (a b : Int) : Except Failure Int := checkedDivI128 (.pool .overflow) a b

/-! ## Guards -/

/-- Refuse the call while the pool is paused. -/
def requireNotPaused (p : Storage) : Except Failure Unit :=
  ensure (p.paused = false) (.pool .contractPaused)

/-- The caller is the stored admin; that it signed is asked elsewhere. -/
def requireAdmin (p : Storage) (caller : Address) : Except Failure Unit := do
  let admin ← getAdmin p
  ensure (admin = caller) (.pool .notAdmin)

/-- The caller is the credit line the admin has set. -/
def requireCreditline (p : Storage) (caller : Address) : Except Failure Unit :=
  ensure (p.creditline = some caller) (.pool .notCreditLine)

/-- Take the lock, or `ReentrancyDetected`. -/
def enterNonReentrant (p : Storage) : Except Failure Storage := do
  ensure (p.reentrancyLocked = false) (.pool .reentrancyDetected)
  return { p with reentrancyLocked := true }

/-- Release the lock. -/
def exitNonReentrant (p : Storage) : Storage := { p with reentrancyLocked := false }

/-- `is_active(merchant)` on the registry; any failure of the call counts as
inactive. -/
def vendorIsActive (d : Deployment) (active : Address → Option Bool)
    (registry merchant : Address) : Bool :=
  if registry = d.vendorRegistry then (active merchant).getD false else false

/-! ## Share price -/

/-- The dead shares are backed by as much virtual liquidity, so an untouched
pool quotes `1.0`; a price that floors to `0` is quoted as `1`. -/
def calculateSharePriceInternal (p : Storage) : Except Failure Int :=
  if p.totalShares = 0 then .ok sharePricePrecision
  else do
    let effectiveLiquidity ← addI128 p.totalLiquidity deadSharesAmount
    let scaled ← mulI128 effectiveLiquidity sharePricePrecision
    let price ← divI128 scaled p.totalShares
    return if price = 0 then 1 else price

/-- The price as readers see it. -/
def getSharePrice (p : Storage) : Except Failure Int := calculateSharePriceInternal p

/-- What `get_pool_stats` reports. -/
structure PoolStats where
  totalLiquidity : Int
  lockedLiquidity : Int
  availableLiquidity : Int
  totalShares : Int
  sharePrice : Int

/-- `i128::saturating_sub`. -/
def saturatingSub (a b : Int) : Int := max (-2 ^ 127) (min (2 ^ 127 - 1) (a - b))

/-- The totals with the price; without a price there is no report. -/
def getPoolStats (p : Storage) : Except Failure PoolStats := do
  let sharePrice ← calculateSharePriceInternal p
  return {
    totalLiquidity := p.totalLiquidity
    lockedLiquidity := p.lockedLiquidity
    availableLiquidity := saturatingSub p.totalLiquidity p.lockedLiquidity
    totalShares := p.totalShares
    sharePrice }

/-- The shares of a provider. -/
def getLpShares (p : Storage) (provider : Address) : Int := p.lpShares provider

/-- All that was ever lent for purchases at a merchant. -/
def getMerchantFunded (p : Storage) (merchant : Address) : Int := p.merchantFunded merchant

/-- What `shares` are worth at the current price. A price that cannot be
computed is taken for `1.0`, a product that overflows for `0`. -/
def calculateWithdrawal (p : Storage) (shares : Int) : Int :=
  if shares = 0 then 0
  else if p.totalShares = 0 then 0
  else
    let sharePrice := (calculateSharePriceInternal p).toOption.getD sharePricePrecision
    let scaled := (mulI128 shares sharePrice).toOption.getD 0
    (divI128 scaled sharePricePrecision).toOption.getD 0

/-! ## Liquidity providers -/

/-- The first deposit seeds the dead shares, which no account holds. -/
def seedDeadShares (p : Storage) : Storage :=
  if p.totalShares = 0 then { p with totalShares := deadSharesAmount } else p

/-- Buy shares at the current price, both divisions rounded down. -/
def deposit (d : Deployment) (env : Env) (provider : Address) (amount : Int) (s : State) :
    Except Failure (Int × State) := do
  requireAuth env provider
  requireNotPaused s.pool
  ensure (minAmount ≤ amount) (.pool .invalidAmount)
  let entered ← enterNonReentrant s.pool
  let p := seedDeadShares entered
  let sharePrice ← calculateSharePriceInternal p
  let scaled ← mulI128 amount sharePricePrecision
  let sharesIssued ← divI128 scaled sharePrice
  ensure (0 < sharesIssued) (.pool .invalidAmount)
  let token ← getToken p
  let newShares ← addI128 (p.lpShares provider) sharesIssued
  let newTotalShares ← addI128 p.totalShares sharesIssued
  let newTotalLiquidity ← addI128 p.totalLiquidity amount
  let ledger ← Token.transferAt d env d.pool token provider d.pool amount s.token
  return (sharesIssued, {
    pool := exitNonReentrant { p with
      lpShares := Function.update p.lpShares provider newShares
      totalShares := newTotalShares
      totalLiquidity := newTotalLiquidity }
    token := ledger })

/-- Sell shares at the current price, out of what is not lent. -/
def withdraw (d : Deployment) (env : Env) (provider : Address) (shares : Int) (s : State) :
    Except Failure (Int × State) := do
  requireAuth env provider
  requireNotPaused s.pool
  ensure (0 < shares) (.pool .invalidAmount)
  let p ← enterNonReentrant s.pool
  ensure (shares ≤ p.lpShares provider) (.pool .insufficientShares)
  let sharePrice ← calculateSharePriceInternal p
  let scaled ← mulI128 shares sharePrice
  let amountReturned ← divI128 scaled sharePricePrecision
  let availableLiquidity ← subI128 p.totalLiquidity p.lockedLiquidity
  ensure (amountReturned ≤ availableLiquidity) (.pool .insufficientLiquidity)
  let newProviderShares ← subI128 (p.lpShares provider) shares
  let newTotalShares ← subI128 p.totalShares shares
  let newTotalLiquidity ← subI128 p.totalLiquidity amountReturned
  let token ← getToken p
  let ledger ← Token.transferAt d env d.pool token d.pool provider amountReturned s.token
  return (amountReturned, {
    pool := exitNonReentrant { p with
      lpShares := Function.update p.lpShares provider newProviderShares
      totalShares := newTotalShares
      totalLiquidity := newTotalLiquidity }
    token := ledger })

/-! ## The credit line's side -/

/-- The per-ledger outflow window: disabled at cap `0`, reset on a new ledger
sequence. -/
def chargeOutflowWindow (env : Env) (available amount : Int) (p : Storage) :
    Except Failure Storage :=
  if 0 < p.outflowCapBps then do
    let scaled ← mulI128 available p.outflowCapBps
    let outflowCap ← divI128 scaled totalBps
    let used := if p.outflowSeq ≠ env.sequence then 0 else p.outflowUsed
    let newUsed ← addI128 used amount
    ensure (newUsed ≤ outflowCap) (.pool .outflowCapExceeded)
    let _ ← subI128 outflowCap newUsed
    return { p with outflowSeq := env.sequence, outflowUsed := newUsed }
  else .ok p

/-- The cumulative exposure to one merchant: tracked always, capped when the
ceiling is not `0`. -/
def chargeMerchantExposure (merchant : Address) (amount : Int) (p : Storage) :
    Except Failure Storage := do
  let newFunded ← addI128 (p.merchantFunded merchant) amount
  ensure (0 < p.merchantExposureCap → newFunded ≤ p.merchantExposureCap)
    (.pool .merchantExposureCapExceeded)
  let _ ← (if 0 < p.merchantExposureCap then subI128 p.merchantExposureCap newFunded else .ok 0)
  return { p with merchantFunded := Function.update p.merchantFunded merchant newFunded }

/-- With a registry set, the merchant has to be active there. -/
def requireActiveVendor (d : Deployment) (active : Address → Option Bool) (merchant : Address)
    (p : Storage) : Except Failure Unit :=
  match p.vendorRegistry with
  | some registry =>
    ensure (vendorIsActive d active registry merchant = true) (.pool .vendorNotActive)
  | none => .ok ()

/-- The credit line has the pool pay a merchant; the amount counts as lent. -/
def fundLoan (d : Deployment) (active : Address → Option Bool) (env : Env)
    (creditline merchant : Address) (amount : Int) (s : State) : Except Failure State := do
  requireAuth env creditline
  requireNotPaused s.pool
  requireCreditline s.pool creditline
  ensure (0 < amount) (.pool .invalidAmount)
  requireActiveVendor d active merchant s.pool
  let p ← enterNonReentrant s.pool
  let available ← subI128 p.totalLiquidity p.lockedLiquidity
  ensure (amount ≤ available) (.pool .insufficientLiquidity)
  let p ← chargeOutflowWindow env available amount p
  let p ← chargeMerchantExposure merchant amount p
  let newLocked ← addI128 p.lockedLiquidity amount
  let token ← getToken p
  let ledger ← Token.transferAt d env d.pool token d.pool merchant amount s.token
  return {
    pool := exitNonReentrant { p with lockedLiquidity := newLocked }
    token := ledger }

/-- A fee share goes to its recipient when it is positive and the recipient is
configured; otherwise the tokens stay where they are. -/
def payFee (d : Deployment) (env : Env) (token : Address) (recipient : Option Address)
    (amount : Int) (t : Token) : Except Failure Token :=
  match recipient with
  | some r => if 0 < amount then Token.transferAt d env d.pool token d.pool r amount t else .ok t
  | none => .ok t

/-- The split 85/10/5 of `interestAmount`: the merchant share is what the two
floored shares leave. -/
def distributeInterestInternal (d : Deployment) (env : Env) (interestAmount : Int) (s : State) :
    Except Failure State := do
  ensure (0 < interestAmount) (.pool .invalidAmount)
  let lpScaled ← mulI128 interestAmount lpFeeBps
  let lpAmount ← divI128 lpScaled totalBps
  let protocolScaled ← mulI128 interestAmount protocolFeeBps
  let protocolAmount ← divI128 protocolScaled totalBps
  let afterLp ← subI128 interestAmount lpAmount
  let merchantAmount ← subI128 afterLp protocolAmount
  let token ← getToken s.pool
  let ledger ← payFee d env token s.pool.treasury protocolAmount s.token
  let ledger ← payFee d env token s.pool.merchantFund merchantAmount ledger
  let newTotal ← addI128 s.pool.totalLiquidity lpAmount
  return { pool := { s.pool with totalLiquidity := newTotal }, token := ledger }

/-- Principal lowers what counts as lent, never below zero; interest is distributed.
There is no pause check. -/
def receiveRepayment (d : Deployment) (env : Env) (creditline : Address)
    (principal interest : Int) (s : State) : Except Failure State := do
  requireAuth env creditline
  requireCreditline s.pool creditline
  ensure (0 ≤ principal ∧ 0 ≤ interest) (.pool .invalidAmount)
  let total ← addI128 principal interest
  ensure (0 < total) (.pool .invalidAmount)
  let p ← enterNonReentrant s.pool
  let unlocked ← subI128 p.lockedLiquidity principal
  let p := { p with lockedLiquidity := max 0 unlocked }
  let token ← getToken p
  let ledger ← Token.transferAt d env d.pool token creditline d.pool total s.token
  let s' ← (if 0 < interest then distributeInterestInternal d env interest ⟨p, ledger⟩
    else .ok ⟨p, ledger⟩)
  return { s' with pool := exitNonReentrant s'.pool }

/-- The guarantee comes off `locked_liquidity` and onto `total_liquidity`, both
by the recovered amount. -/
def receiveGuarantee (d : Deployment) (env : Env) (creditline : Address) (amount : Int)
    (s : State) : Except Failure State := do
  requireAuth env creditline
  requireNotPaused s.pool
  requireCreditline s.pool creditline
  ensure (0 < amount) (.pool .invalidAmount)
  let p ← enterNonReentrant s.pool
  let recovered := min amount p.lockedLiquidity
  let newLocked ← subI128 p.lockedLiquidity recovered
  let newTotal ← addI128 p.totalLiquidity recovered
  let token ← getToken p
  let ledger ← Token.transferAt d env d.pool token creditline d.pool amount s.token
  return {
    pool := exitNonReentrant { p with lockedLiquidity := newLocked, totalLiquidity := newTotal }
    token := ledger }

/-- Write off what a default leaves uncovered, from what is lent and from the total;
neither goes below zero. -/
def absorbLoss (env : Env) (creditline : Address) (principalShortfall : Int) (s : State) :
    Except Failure State := do
  requireAuth env creditline
  requireNotPaused s.pool
  requireCreditline s.pool creditline
  ensure (0 < principalShortfall) (.pool .invalidAmount)
  let p ← enterNonReentrant s.pool
  let lockedReduction := min principalShortfall p.lockedLiquidity
  let totalReduction := min principalShortfall p.totalLiquidity
  let newLocked ← subI128 p.lockedLiquidity lockedReduction
  let newTotal ← subI128 p.totalLiquidity totalReduction
  return { s with
    pool := exitNonReentrant { p with lockedLiquidity := newLocked, totalLiquidity := newTotal } }

/-- The credit line brings interest to be distributed. -/
def distributeInterest (d : Deployment) (env : Env) (creditline : Address)
    (interestAmount : Int) (s : State) : Except Failure State := do
  requireAuth env creditline
  requireNotPaused s.pool
  requireCreditline s.pool creditline
  let p ← enterNonReentrant s.pool
  let token ← getToken p
  let ledger ← Token.transferAt d env d.pool token creditline d.pool interestAmount s.token
  let s' ← distributeInterestInternal d env interestAmount ⟨p, ledger⟩
  return { s' with pool := exitNonReentrant s'.pool }

/-- The public alias the source keeps beside `distributeInterest`; the two
bodies are the same. -/
def accumulateInterest (d : Deployment) (env : Env) (creditline : Address)
    (interestAmount : Int) (s : State) : Except Failure State :=
  distributeInterest d env creditline interestAmount s

/-! ## Administration -/

/-- Set the admin, the token and the recipients, once. -/
def initializeContract (env : Env) (admin token treasury merchantFund : Address)
    (vendorRegistry : Option Address) (p : Storage) : Except Failure Storage := do
  ensure (p.admin = none) (.pool .alreadyInitialized)
  requireAuth env admin
  return { p with
    admin := some admin
    token := some token
    treasury := some treasury
    merchantFund := some merchantFund
    vendorRegistry := vendorRegistry }

/-- The shape of the setters that take the admin as an argument. -/
def adminSet (env : Env) (admin : Address) (write : Storage → Storage) (p : Storage) :
    Except Failure Storage := do
  requireAuth env admin
  requireAdmin p admin
  return write p

/-- The contract that may lend and repay. -/
def setCreditline (env : Env) (admin creditline : Address) (p : Storage) :
    Except Failure Storage :=
  adminSet env admin (fun p => { p with creditline := some creditline }) p

/-- Who receives the protocol's part of interest. -/
def setTreasury (env : Env) (admin treasury : Address) (p : Storage) : Except Failure Storage :=
  adminSet env admin (fun p => { p with treasury := some treasury }) p

/-- Who receives the merchants' part of interest. -/
def setMerchantFund (env : Env) (admin merchantFund : Address) (p : Storage) :
    Except Failure Storage :=
  adminSet env admin (fun p => { p with merchantFund := some merchantFund }) p

/-- The registry merchants are checked in; `none` turns the check off. -/
def setVendorRegistry (env : Env) (admin : Address) (registry : Option Address) (p : Storage) :
    Except Failure Storage :=
  adminSet env admin (fun p => { p with vendorRegistry := registry }) p

/-- Stop the entry points that ask for it; repayments do not. -/
def pause (env : Env) (admin : Address) (p : Storage) : Except Failure Storage :=
  adminSet env admin (fun p => { p with paused := true }) p

def unpause (env : Env) (admin : Address) (p : Storage) : Except Failure Storage :=
  adminSet env admin (fun p => { p with paused := false }) p

/-- The share of free liquidity that may be lent in one ledger: `0` is no cap, more than
all of it an error. -/
def setOutflowCapBps (env : Env) (admin : Address) (bps : Nat) (p : Storage) :
    Except Failure Storage := do
  requireAuth env admin
  requireAdmin p admin
  ensure (bps ≤ 10000) (.pool .invalidCap)
  return { p with outflowCapBps := bps }

/-- The most that may ever be lent for one merchant; `0` is no cap. -/
def setMerchantExposureCap (env : Env) (admin : Address) (amount : Int) (p : Storage) :
    Except Failure Storage := do
  requireAuth env admin
  requireAdmin p admin
  ensure (0 ≤ amount) (.pool .invalidCap)
  return { p with merchantExposureCap := amount }

/-- The admin hands over to another. -/
def setAdmin (env : Env) (newAdmin : Address) (p : Storage) : Except Failure Storage := do
  let oldAdmin ← getAdmin p
  requireAuth env oldAdmin
  return { p with admin := some newAdmin }

/-! ## Upgrades -/

/-- The parameters as the pool decodes them. -/
structure ProtocolParameters where
  minGuaranteePercent : Int
  minReputationThreshold : Nat
  fullRepaymentReward : Nat
  defaultPenalty : Nat
  largeLoanThreshold : Int
  largeLoanDefaultPenalty : Nat
  baseInterestBps : Nat
  gracePeriodSeconds : Nat
  upgradeDelaySeconds : Nat

/-- The nine fields of the pool's copy of the struct: `late_fee_bps` is not among them. -/
def ProtocolParameters.fieldNames : List String :=
  ["min_guarantee_percent", "min_reputation_threshold", "full_repayment_reward",
    "default_penalty", "large_loan_threshold", "large_loan_default_penalty", "base_interest_bps",
    "grace_period_seconds", "upgrade_delay_seconds"]

/-- The reply as the host unpacks it. -/
def ProtocolParameters.decode (r : Fields) : Reply ProtocolParameters :=
  r.unpack fieldNames do
    return {
      minGuaranteePercent := ← r.i128 "min_guarantee_percent"
      minReputationThreshold := ← r.u32 "min_reputation_threshold"
      fullRepaymentReward := ← r.u32 "full_repayment_reward"
      defaultPenalty := ← r.u32 "default_penalty"
      largeLoanThreshold := ← r.i128 "large_loan_threshold"
      largeLoanDefaultPenalty := ← r.u32 "large_loan_default_penalty"
      baseInterestBps := ← r.u32 "base_interest_bps"
      gracePeriodSeconds := ← r.u64 "grace_period_seconds"
      upgradeDelaySeconds := ← r.u64 "upgrade_delay_seconds" }

/-- The pool's own errors for the shared upgrade steps. -/
def upgradeErrors : UpgradeErrors where
  overflow := .pool .overflow
  notProposed := .pool .upgradeNotProposed
  hashMismatch := .pool .upgradeHashMismatch
  timelockNotMet := .pool .upgradeTimelockNotMet

/-- The contract the upgrade delay is read from. -/
def setParametersContract (env : Env) (address : Address) (p : Storage) :
    Except Failure Storage := do
  let admin ← getAdmin p
  requireAuth env admin
  return { p with parametersContract := some address }

/-- `getParameters` is the reply of the contract at an address. -/
def getUpgradeDelaySeconds (getParameters : Address → Reply ProtocolParameters) (p : Storage) :
    Except Failure Nat :=
  readUpgradeDelay ProtocolParameters.upgradeDelaySeconds getParameters p.parametersContract

/-- The admin proposes code to swap in when the delay read here has passed. -/
def proposeUpgrade (getParameters : Address → Reply ProtocolParameters) (env : Env)
    (newWasmHash : WasmHash) (p : Storage) : Except Failure Storage := do
  let admin ← getAdmin p
  requireAuth env admin
  let delay ← getUpgradeDelaySeconds getParameters p
  let pending ← PendingUpgrade.propose upgradeErrors env delay newWasmHash
  return { p with pendingUpgrade := some pending }

/-- The admin swaps in the proposed code once its time has come. -/
def executeUpgrade (env : Env) (newWasmHash : WasmHash) (p : Storage) :
    Except Failure Storage := do
  let admin ← getAdmin p
  requireAuth env admin
  let newVersion ← PendingUpgrade.execute upgradeErrors env newWasmHash p.pendingUpgrade p.version
  updateCurrentContractWasm env newWasmHash
  return { p with version := newVersion, pendingUpgrade := none }

/-- The same call under its other name. -/
def upgrade (env : Env) (newWasmHash : WasmHash) (p : Storage) : Except Failure Storage :=
  executeUpgrade env newWasmHash p

/-! ## Calls -/

/-- The entry points that write. -/
inductive Call where
  | initializeContract (admin token treasury merchantFund : Address)
      (vendorRegistry : Option Address)
  | setCreditline (admin creditline : Address)
  | setTreasury (admin treasury : Address)
  | setMerchantFund (admin merchantFund : Address)
  | setVendorRegistry (admin : Address) (registry : Option Address)
  | setOutflowCapBps (admin : Address) (bps : Nat)
  | setMerchantExposureCap (admin : Address) (amount : Int)
  | setAdmin (newAdmin : Address)
  | setParametersContract (address : Address)
  | proposeUpgrade (getParameters : Address → Reply ProtocolParameters) (newWasmHash : WasmHash)
  | executeUpgrade (newWasmHash : WasmHash)
  | upgrade (newWasmHash : WasmHash)
  | pause (admin : Address)
  | unpause (admin : Address)
  | deposit (provider : Address) (amount : Int)
  | withdraw (provider : Address) (shares : Int)
  | fundLoan (creditline merchant : Address) (amount : Int)
  | receiveRepayment (creditline : Address) (principal interest : Int)
  | receiveGuarantee (creditline : Address) (amount : Int)
  | absorbLoss (creditline : Address) (principalShortfall : Int)
  | distributeInterest (creditline : Address) (interestAmount : Int)
  | accumulateInterest (creditline : Address) (interestAmount : Int)

/-- A call on the storage alone. -/
def State.lift (s : State) (r : Except Failure Storage) : Except Failure State :=
  r.map fun p => { s with pool := p }

/-- What a call does to the pool and the ledger. -/
def exec (d : Deployment) (active : Address → Option Bool) (env : Env) (call : Call)
    (s : State) : Except Failure State :=
  match call with
  | .initializeContract admin token treasury merchantFund registry =>
    s.lift (initializeContract env admin token treasury merchantFund registry s.pool)
  | .setCreditline admin creditline => s.lift (setCreditline env admin creditline s.pool)
  | .setTreasury admin treasury => s.lift (setTreasury env admin treasury s.pool)
  | .setMerchantFund admin fund => s.lift (setMerchantFund env admin fund s.pool)
  | .setVendorRegistry admin registry => s.lift (setVendorRegistry env admin registry s.pool)
  | .setOutflowCapBps admin bps => s.lift (setOutflowCapBps env admin bps s.pool)
  | .setMerchantExposureCap admin amount =>
    s.lift (setMerchantExposureCap env admin amount s.pool)
  | .setAdmin newAdmin => s.lift (setAdmin env newAdmin s.pool)
  | .setParametersContract address => s.lift (setParametersContract env address s.pool)
  | .proposeUpgrade getParameters newWasmHash =>
    s.lift (proposeUpgrade getParameters env newWasmHash s.pool)
  | .executeUpgrade newWasmHash => s.lift (executeUpgrade env newWasmHash s.pool)
  | .upgrade newWasmHash => s.lift (upgrade env newWasmHash s.pool)
  | .pause admin => s.lift (pause env admin s.pool)
  | .unpause admin => s.lift (unpause env admin s.pool)
  | .deposit provider amount => (deposit d env provider amount s).map Prod.snd
  | .withdraw provider shares => (withdraw d env provider shares s).map Prod.snd
  | .fundLoan creditline merchant amount =>
    fundLoan d active env creditline merchant amount s
  | .receiveRepayment creditline principal interest =>
    receiveRepayment d env creditline principal interest s
  | .receiveGuarantee creditline amount => receiveGuarantee d env creditline amount s
  | .absorbLoss creditline shortfall => absorbLoss env creditline shortfall s
  | .distributeInterest creditline amount => distributeInterest d env creditline amount s
  | .accumulateInterest creditline amount => accumulateInterest d env creditline amount s

end StepFi.LiquidityPool

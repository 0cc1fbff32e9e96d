import StepFi.Upgrade
import StepFi.Encoding

/-!
# The vendor registry contract

The vendors loans can be spent at. The admin registers a vendor as pending and
moves it between its states; only an approved one is active.
-/

namespace StepFi.VendorRegistry

open Lib

/-! ## Types and storage -/

/-- The states of a vendor. -/
inductive VendorStatus where
  | pending | approved | suspended | rejected
  deriving DecidableEq, Repr

/-- The record of a vendor. -/
structure VendorInfo where
  /-- The bytes of the host string. -/
  name : List UInt8
  registrationDate : Nat
  status : VendorStatus
  totalSales : Nat
  deriving DecidableEq

/-- The contract's keys: an absent one is `none`, or the value its reader falls back to. -/
structure Storage where
  admin : Option Address
  vendors : Address → Option VendorInfo
  vendorCount : Nat
  reentrancyLocked : Bool
  parametersContract : Option Address
  pendingUpgrade : Option PendingUpgrade
  version : Nat

/-- Storage as deployed: every key missing. -/
def Storage.empty : Storage where
  admin := none
  vendors := fun _ => none
  vendorCount := 0
  reentrancyLocked := false
  parametersContract := none
  pendingUpgrade := none
  version := 1

/-- The admin, `NotInitialized` before `initialize`. -/
def getAdmin (p : Storage) : Except Failure Address :=
  demand p.admin (.vendorRegistry .notInitialized)

/-- A registered vendor, or `VendorNotFound`. -/
def getVendor (p : Storage) (vendor : Address) : Except Failure VendorInfo :=
  demand (p.vendors vendor) (.vendorRegistry .vendorNotFound)

/-- Write a vendor's record. -/
def setVendor (vendor : Address) (info : VendorInfo) (p : Storage) : Storage :=
  { p with vendors := Function.update p.vendors vendor (some info) }

/-- One vendor more, or `Overflow`. -/
def incrementVendorCount (p : Storage) : Except Failure Storage := do
  let next ← checkedU64 (.vendorRegistry .overflow) (p.vendorCount + 1)
  return { p with vendorCount := next }

/-! ## Guards -/

/-- The argument signed and is the stored admin. -/
def requireAdmin (env : Env) (p : Storage) (admin : Address) : Except Failure Unit := do
  requireAuth env admin
  let stored ← getAdmin p
  ensure (admin = stored) (.vendorRegistry .unauthorized)

/-- Take the lock, or `ReentrancyDetected`. -/
def checkNonReentrant (p : Storage) : Except Failure Storage := do
  ensure (p.reentrancyLocked = false) (.vendorRegistry .reentrancyDetected)
  return { p with reentrancyLocked := true }

/-- Release the lock. -/
def exitNonReentrant (p : Storage) : Storage := { p with reentrancyLocked := false }

/-! ## Vendors -/

/-- Set the admin, once. -/
def initializeContract (env : Env) (admin : Address) (p : Storage) : Except Failure Storage := do
  requireAuth env admin
  ensure (p.admin = none) (.vendorRegistry .alreadyInitialized)
  return { p with admin := some admin }

/-- File a new vendor as pending, under a name of `1` to `64` bytes. -/
def registerVendor (env : Env) (admin vendor : Address) (name : List UInt8) (p : Storage) :
    Except Failure Storage := do
  ensure (p.admin.isSome = true) (.vendorRegistry .notInitialized)
  requireAdmin env p admin
  ensure ((p.vendors vendor).isNone = true) (.vendorRegistry .vendorAlreadyRegistered)
  ensure (name ≠ [] ∧ name.length ≤ 64) (.vendorRegistry .invalidName)
  let p ← checkNonReentrant p
  let info : VendorInfo := {
    name, registrationDate := env.timestamp, status := .pending, totalSales := 0 }
  let p ← incrementVendorCount (setVendor vendor info p)
  return exitNonReentrant p

/-- The shape of the calls that move a vendor to `status`; `check` is what a call
requires of the record. -/
def setStatus (env : Env) (admin vendor : Address) (check : VendorInfo → Except Failure Unit)
    (status : VendorStatus) (p : Storage) : Except Failure Storage := do
  ensure (p.admin.isSome = true) (.vendorRegistry .notInitialized)
  requireAdmin env p admin
  let p ← checkNonReentrant p
  let info ← getVendor p vendor
  check info
  return exitNonReentrant (setVendor vendor { info with status := status } p)

/-- Only a pending vendor can be approved. -/
def approveVendor (env : Env) (admin vendor : Address) (p : Storage) : Except Failure Storage :=
  setStatus env admin vendor
    (fun info => ensure (info.status = .pending) (.vendorRegistry .vendorNotPending)) .approved p

/-- From any state. -/
def suspendVendor (env : Env) (admin vendor : Address) (p : Storage) : Except Failure Storage :=
  setStatus env admin vendor (fun _ => .ok ()) .suspended p

/-- Another name for a suspension. -/
def deactivateVendor (env : Env) (admin vendor : Address) (p : Storage) : Except Failure Storage :=
  setStatus env admin vendor (fun _ => .ok ()) .suspended p

/-- From any state, also one never approved. -/
def activateVendor (env : Env) (admin vendor : Address) (p : Storage) : Except Failure Storage :=
  setStatus env admin vendor (fun _ => .ok ()) .approved p

/-- Activate or suspend, as the flag says. -/
def setVendorStatus (env : Env) (admin vendor : Address) (active : Bool) (p : Storage) :
    Except Failure Storage :=
  setStatus env admin vendor (fun _ => .ok ()) (if active then .approved else .suspended) p

/-- Whether loans can be spent at the vendor; one not registered is inactive. -/
def isActive (p : Storage) (vendor : Address) : Bool :=
  match getVendor p vendor with
  | .ok info => info.status = .approved
  | .error _ => false

/-! ## Upgrades -/

/-- The parameters as the registry decodes them. -/
structure ProtocolParameters where
  minGuaranteePercent : Int
  minReputationThreshold : Nat
  fullRepaymentReward : Nat
  defaultPenalty : Nat
  largeLoanThreshold : Int
  largeLoanDefaultPenalty : Nat
  baseInterestBps : Nat
  gracePeriodSeconds : Nat
  upgradeDelaySeconds : Nat

/-- The nine fields of this copy of the struct: `late_fee_bps` is not among them. -/
def ProtocolParameters.fieldNames : List String :=
  ["min_guarantee_percent", "min_reputation_threshold", "full_repayment_reward",
    "default_penalty", "large_loan_threshold", "large_loan_default_penalty", "base_interest_bps",
    "grace_period_seconds", "upgrade_delay_seconds"]

/-- The reply as the host unpacks it. -/
def ProtocolParameters.decode (r : Fields) : Reply ProtocolParameters :=
  r.unpack fieldNames do
    return {
      minGuaranteePercent := ← r.i128 "min_guarantee_percent"
      minReputationThreshold := ← r.u32 "min_reputation_threshold"
      fullRepaymentReward := ← r.u32 "full_repayment_reward"
      defaultPenalty := ← r.u32 "default_penalty"
      largeLoanThreshold := ← r.i128 "large_loan_threshold"
      largeLoanDefaultPenalty := ← r.u32 "large_loan_default_penalty"
      baseInterestBps := ← r.u32 "base_interest_bps"
      gracePeriodSeconds := ← r.u64 "grace_period_seconds"
      upgradeDelaySeconds := ← r.u64 "upgrade_delay_seconds" }

/-- The registry's own errors for the shared upgrade steps. -/
def upgradeErrors : UpgradeErrors where
  overflow := .vendorRegistry .overflow
  notProposed := .vendorRegistry .upgradeNotProposed
  hashMismatch := .vendorRegistry .upgradeHashMismatch
  timelockNotMet := .vendorRegistry .upgradeTimelockNotMet

/-- The contract the upgrade delay is read from. -/
def setParametersContract (env : Env) (address : Address) (p : Storage) :
    Except Failure Storage := do
  let admin ← getAdmin p
  requireAuth env admin
  return { p with parametersContract := some address }

/-- `getParameters` is the reply of the contract at an address. -/
def getUpgradeDelaySeconds (getParameters : Address → Reply ProtocolParameters) (p : Storage) :
    Except Failure Nat :=
  readUpgradeDelay ProtocolParameters.upgradeDelaySeconds getParameters p.parametersContract

/-- The admin proposes code to swap in when the delay read here has passed. -/
def proposeUpgrade (getParameters : Address → Reply ProtocolParameters) (env : Env)
    (newWasmHash : WasmHash) (p : Storage) : Except Failure Storage := do
  let admin ← getAdmin p
  requireAuth env admin
  let delay ← getUpgradeDelaySeconds getParameters p
  let pending ← PendingUpgrade.propose upgradeErrors env delay newWasmHash
  return { p with pendingUpgrade := some pending }

/-- The admin swaps in the proposed code once its time has come. -/
def executeUpgrade (env : Env) (newWasmHash : WasmHash) (p : Storage) :
    Except Failure Storage := do
  let admin ← getAdmin p
  requireAuth env admin
  let newVersion ← PendingUpgrade.execute upgradeErrors env newWasmHash p.pendingUpgrade p.version
  updateCurrentContractWasm env newWasmHash
  return { p with version := newVersion, pendingUpgrade := none }

/-- The same call under its other name. -/
def upgrade (env : Env) (newWasmHash : WasmHash) (p : Storage) : Except Failure Storage :=
  executeUpgrade env newWasmHash p

/-! ## Calls -/

/-- The entry points that write. -/
inductive Call where
  | initializeContract (admin : Address)
  | registerVendor (admin vendor : Address) (name : List UInt8)
  | approveVendor (admin vendor : Address)
  | suspendVendor (admin vendor : Address)
  | deactivateVendor (admin vendor : Address)
  | activateVendor (admin vendor : Address)
  | setVendorStatus (admin vendor : Address) (active : Bool)
  | setParametersContract (address : Address)
  | proposeUpgrade (getParameters : Address → Reply ProtocolParameters) (newWasmHash : WasmHash)
  | executeUpgrade (newWasmHash : WasmHash)
  | upgrade (newWasmHash : WasmHash)

/-- What a call does to the storage. -/
def exec (env : Env) (call : Call) (p : Storage) : Except Failure Storage :=
  match call with
  | .initializeContract admin => initializeContract env admin p
  | .registerVendor admin vendor name => registerVendor env admin vendor name p
  | .approveVendor admin vendor => approveVendor env admin vendor p
  | .suspendVendor admin vendor => suspendVendor env admin vendor p
  | .deactivateVendor admin vendor => deactivateVendor env admin vendor p
  | .activateVendor admin vendor => activateVendor env admin vendor p
  | .setVendorStatus admin vendor active => setVendorStatus env admin vendor active p
  | .setParametersContract address => setParametersContract env address p
  | .proposeUpgrade getParameters newWasmHash => proposeUpgrade getParameters env newWasmHash p
  | .executeUpgrade newWasmHash => executeUpgrade env newWasmHash p
  | .upgrade newWasmHash => upgrade env newWasmHash p

/-- One event: a call by anyone, at any ledger time. -/
structure Label where
  env : Env
  call : Call

def take (p : Storage) (l : Label) : Except Failure Storage := exec l.env l.call p

/-- One successful call. -/
def Step (p : Storage) (l : Label) (p' : Storage) : Prop := take p l = .ok p'

/-- The contract just deployed, with nothing stored. -/
def Deployed (p : Storage) : Prop := p = Storage.empty

end StepFi.VendorRegistry

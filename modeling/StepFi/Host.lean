import StepFi.Lib.Outcome
import Mathlib.Algebra.Order.Ring.Int
import Mathlib.Data.List.Nodup
import Mathlib.Logic.Function.Basic

/-!
# The host the contracts run on

Addresses, the invocation environment, the machine integers and the failures a
call can end with. A failed call leaves no trace: the host rolls its writes
back, so a contract function is a map into `Except Failure` and a step of a run
is a call that returned `ok`.
-/

namespace StepFi

open Lib

abbrev Address := Nat

/-- The hash a contract's code is uploaded and found under. -/
abbrev WasmHash := BitVec 256

/-- A token transfer a contract allows in advance, for the call it makes next
(`authorize_as_current_contract`). -/
structure TransferAuth where
  token : Address
  source : Address
  target : Address
  amount : Int
  deriving DecidableEq

/-- What a call reads from the host: the ledger's time and sequence number, the
code uploaded to it, the accounts whose signatures cover the whole call tree, the
contract that made this call, and the transfers that contract allowed in advance. -/
structure Env where
  timestamp : Nat
  sequence : Nat
  uploaded : WasmHash → Bool
  signed : Address → Bool
  invoker : Option Address
  delegated : List TransferAuth
  timestamp_lt : timestamp < 2 ^ 64

/-- `require_auth` passes for a signer, and for the direct invoker. -/
def Env.auths (env : Env) (a : Address) : Bool := env.signed a || env.invoker == some a

/-- The environment of a call made by the contract at `a`. -/
def Env.callFrom (env : Env) (a : Address) (delegated : List TransferAuth) : Env :=
  { env with invoker := some a, delegated := delegated }

/-- The token accepts a transfer asked for by `caller` when the payer is the
caller, has signed, or has allowed exactly this transfer in advance. -/
def Env.Covers (env : Env) (caller : Address) (t : TransferAuth) : Prop :=
  caller = t.source ∨ env.signed t.source = true ∨ t ∈ env.delegated

instance (env : Env) (caller : Address) (t : TransferAuth) : Decidable (env.Covers caller t) :=
  inferInstanceAs (Decidable (_ ∨ _))

@[simp] theorem Env.callFrom_auths (env : Env) (a : Address) (ts : List TransferAuth) :
    (env.callFrom a ts).auths a = true := by simp [callFrom, auths]

@[simp] theorem Env.covers_self (env : Env) (token a target : Address) (amount : Int) :
    env.Covers a ⟨token, a, target, amount⟩ := .inl rfl

@[simp] theorem Env.callFrom_covers (env : Env) (a caller : Address) (t : TransferAuth) :
    (env.callFrom a [t]).Covers caller t := by simp [callFrom, Covers]

/-- The addresses the contracts are deployed at. -/
structure Deployment where
  creditLine : Address
  pool : Address
  reputation : Address
  vendorRegistry : Address
  parameters : Address
  token : Address
  distinct : [creditLine, pool, reputation, vendorRegistry, parameters, token].Nodup

theorem Deployment.creditLine_ne_pool (d : Deployment) : d.creditLine ≠ d.pool := by
  have := d.distinct
  simp only [List.nodup_cons, List.mem_cons, not_or] at this
  exact this.1.1

def Deployment.contracts (d : Deployment) : List Address :=
  [d.creditLine, d.pool, d.reputation, d.vendorRegistry, d.parameters, d.token]

theorem Deployment.creditLine_mem (d : Deployment) : d.creditLine ∈ d.contracts := by
  simp [contracts]

/-- A call from outside: none of the contracts signed it, made it, or allowed a
transfer of its own tokens for it. -/
structure Env.External (d : Deployment) (env : Env) : Prop where
  signed : ∀ a ∈ d.contracts, env.signed a = false
  invoker : ∀ a ∈ d.contracts, env.invoker ≠ some a
  delegated : ∀ t ∈ env.delegated, t.source ∉ d.contracts

theorem Env.external_iff {d : Deployment} {env : Env} : env.External d ↔
    (∀ a ∈ d.contracts, env.signed a = false ∧ env.invoker ≠ some a) ∧
      ∀ t ∈ env.delegated, t.source ∉ d.contracts :=
  ⟨fun h => ⟨fun a ha => ⟨h.signed a ha, h.invoker a ha⟩, h.delegated⟩,
    fun h => ⟨fun a ha => (h.1 a ha).1, fun a ha => (h.1 a ha).2, h.2⟩⟩

instance (d : Deployment) (env : Env) : Decidable (env.External d) :=
  decidable_of_iff _ Env.external_iff.symm

/-- Whoever authorises a call from outside is no contract of the deployment. -/
theorem Env.External.outsider {d : Deployment} {env : Env} {a : Address} (h : env.External d)
    (ha : env.auths a = true) : a ∉ d.contracts := by
  intro hmem
  have h1 := h.signed a hmem
  have h2 := h.invoker a hmem
  simp [auths, h1, h2] at ha

/-- A deployment for concrete runs. -/
def Deployment.sample : Deployment where
  creditLine := 1
  pool := 2
  reputation := 3
  vendorRegistry := 4
  parameters := 5
  token := 6
  distinct := by decide

/-- A call made and signed by the accounts `signers`, on a ledger that has every
code a call may name. -/
def Env.signedBy (signers : List Address) (timestamp : UInt64) : Env where
  timestamp := timestamp.toNat
  sequence := 1
  uploaded := fun _ => true
  signed := fun a => signers.contains a
  invoker := none
  delegated := []
  timestamp_lt := timestamp.toNat_lt

/-! ## Failures -/

inductive CreditLineError where
  | notAdmin | insufficientGuarantee | vendorNotActive | insufficientReputation
  | insufficientLiquidity | loanNotFound | loanNotActive | notBorrower | invalidAmount
  | overflow | underflow | loanNotOverdue | invalidRepaymentAmount | unauthorizedRepayer
  | tokenNotConfigured | invalidVendor | vendorValidationFailed | exposureLimitExceeded
  | loanNotCancellable | parametersUnavailable | reentrancyDetected | loanInGracePeriod
  | invalidInstallmentIndex | installmentAlreadyPaid | invalidLoanStatus | notInitialized
  | invalidDueDate | upgradeNotProposed | upgradeTimelockNotMet | upgradeHashMismatch
  | insufficientRefundBalance | reputationCallFailed | contractPaused
  deriving DecidableEq, Repr

inductive LiquidityPoolError where
  | notAdmin | alreadyInitialized | notInitialized | invalidAmount | insufficientShares
  | insufficientLiquidity | overflow | underflow | notCreditLine | zeroTotalShares
  | reentrancyDetected | upgradeNotProposed | upgradeTimelockNotMet | upgradeHashMismatch
  | contractPaused | outflowCapExceeded | merchantExposureCapExceeded | vendorNotActive
  | invalidCap
  deriving DecidableEq, Repr

inductive ReputationError where
  | notAdmin | notUpdater | outOfBounds | overflow | underflow | notInitialized
  | reentrancyDetected | upgradeNotProposed | upgradeTimelockNotMet | upgradeHashMismatch
  | alreadyInitialized
  deriving DecidableEq, Repr

inductive ParametersError where
  | alreadyInitialized | notAdmin | invalidParameters | notInitialized | reentrancyDetected
  | overflow | underflow | multisigAlreadyConfigured | multisigNotConfigured | notSigner
  | invalidThreshold | duplicateSigner | proposalNotFound | proposalExpired
  | proposalAlreadyExecuted | duplicateSignature | thresholdNotMet | proposalInvalidated
  | approverNotEligible
  deriving DecidableEq, Repr

inductive VendorRegistryError where
  | alreadyInitialized | notInitialized | vendorAlreadyRegistered | vendorNotFound | invalidName
  | unauthorized | overflow | reentrancyDetected | underflow | vendorNotPending
  | upgradeNotProposed | upgradeTimelockNotMet | upgradeHashMismatch
  deriving DecidableEq, Repr

inductive VouchingError where
  | notInitialized | alreadyInitialized | notAdmin | mentorNotVerified | vouchAlreadyActive
  | vouchNotFound | vouchNotActive | invalidBoost | reputationCallFailed | reentrancyDetected
  | overflow | underflow | vouchNotExpired
  deriving DecidableEq, Repr

/-- How a call fails: with a contract's own error, in the token, on a missing
authorisation, on an address that is no such contract, in a function of the host,
or by a plain panic. -/
inductive Failure where
  | creditLine (e : CreditLineError)
  | pool (e : LiquidityPoolError)
  | reputation (e : ReputationError)
  | parameters (e : ParametersError)
  | vendorRegistry (e : VendorRegistryError)
  | vouching (e : VouchingError)
  | token
  | unauthorized (a : Address)
  | noContract (a : Address)
  | host
  | panic
  deriving DecidableEq, Repr

def requireAuth (env : Env) (a : Address) : Except Failure Unit :=
  ensure (env.auths a = true) (.unauthorized a)

@[simp] theorem requireAuth_ok {env : Env} {a : Address} {u : Unit} :
    requireAuth env a = .ok u ↔ env.auths a = true := by simp [requireAuth]

/-- `update_current_contract_wasm`: the host has no contract run on code that was
never uploaded. The swap leaves the storage and the entry points as they are. -/
def updateCurrentContractWasm (env : Env) (newWasmHash : WasmHash) : Except Failure Unit :=
  ensure (env.uploaded newWasmHash = true) .host

@[simp] theorem updateCurrentContractWasm_ok {env : Env} {newWasmHash : WasmHash} {u : Unit} :
    updateCurrentContractWasm env newWasmHash = .ok u ↔ env.uploaded newWasmHash = true := by
  simp [updateCurrentContractWasm]

/-! ## Machine integers

Amounts are `i128`, times and ids `u64`, scores and basis points `u32`. A
checked operation returns the exact result when it fits and the caller's error
otherwise. -/

/-- The value fits an `i128`. -/
def I128.Fits (x : Int) : Prop := -2 ^ 127 ≤ x ∧ x < 2 ^ 127

instance (x : Int) : Decidable (I128.Fits x) := inferInstanceAs (Decidable (_ ∧ _))

def checkedI128 (e : Failure) (x : Int) : Except Failure Int :=
  if I128.Fits x then .ok x else .error e

/-- `checked_div` on `i128`: fails on a zero divisor, and truncates. -/
def checkedDivI128 (e : Failure) (a b : Int) : Except Failure Int :=
  if b = 0 then .error e else checkedI128 e (a.tdiv b)

def checkedU64 (e : Failure) (x : Int) : Except Failure Nat :=
  if 0 ≤ x ∧ x < 2 ^ 64 then .ok x.toNat else .error e

def checkedU32 (e : Failure) (x : Int) : Except Failure Nat :=
  if 0 ≤ x ∧ x < 2 ^ 32 then .ok x.toNat else .error e

@[simp] theorem checkedI128_ok {e : Failure} {x y : Int} :
    checkedI128 e x = .ok y ↔ I128.Fits x ∧ x = y := by
  by_cases h : I128.Fits x <;> simp [checkedI128, h]

@[simp] theorem checkedDivI128_ok {e : Failure} {a b y : Int} :
    checkedDivI128 e a b = .ok y ↔ b ≠ 0 ∧ I128.Fits (a.tdiv b) ∧ a.tdiv b = y := by
  by_cases h : b = 0 <;> simp [checkedDivI128, h]

@[simp] theorem checkedU64_ok {e : Failure} {x : Int} {y : Nat} :
    checkedU64 e x = .ok y ↔ x < 2 ^ 64 ∧ x = y := by
  unfold checkedU64
  split
  · rename_i h
    simp only [Except.ok.injEq]
    omega
  · simp only [reduceCtorEq, false_iff]
    omega

@[simp] theorem checkedU32_ok {e : Failure} {x : Int} {y : Nat} :
    checkedU32 e x = .ok y ↔ x < 2 ^ 32 ∧ x = y := by
  unfold checkedU32
  split
  · rename_i h
    simp only [Except.ok.injEq]
    omega
  · simp only [reduceCtorEq, false_iff]
    omega

theorem I128.fits_natCast {n : Nat} (h : n < 2 ^ 64) : I128.Fits n := by
  unfold I128.Fits
  omega

theorem I128.fits_of_le {x y : Int} (h : I128.Fits y) (h0 : 0 ≤ x) (hle : x ≤ y) :
    I128.Fits x := by
  unfold I128.Fits at *
  omega

end StepFi

import StepFi.Upgrade
import StepFi.Encoding
import StepFi.Lib.Transition

/-!
# The parameters contract

The protocol's parameters, governed by proposals: signers of the multisig propose
an action and approve it, and anyone executes it once enough of them did. Every
proposal keeps the signer set it was made under (`snapshot`).
-/

namespace StepFi.Parameters

open Lib

/-! ## Types -/

/-- What governance sets for the whole protocol. -/
structure ProtocolParameters where
  minGuaranteePercent : Int
  minReputationThreshold : Nat
  fullRepaymentReward : Nat
  defaultPenalty : Nat
  largeLoanThreshold : Int
  largeLoanDefaultPenalty : Nat
  baseInterestBps : Nat
  gracePeriodSeconds : Nat
  upgradeDelaySeconds : Nat
  lateFeeBps : Nat
  deriving DecidableEq, Repr

/-- The struct as `get_parameters` returns it to another contract. -/
def ProtocolParameters.encode (params : ProtocolParameters) : Fields :=
  [("min_guarantee_percent", .i128 params.minGuaranteePercent),
    ("min_reputation_threshold", .u32 params.minReputationThreshold),
    ("full_repayment_reward", .u32 params.fullRepaymentReward),
    ("default_penalty", .u32 params.defaultPenalty),
    ("large_loan_threshold", .i128 params.largeLoanThreshold),
    ("large_loan_default_penalty", .u32 params.largeLoanDefaultPenalty),
    ("base_interest_bps", .u32 params.baseInterestBps),
    ("grace_period_seconds", .u64 params.gracePeriodSeconds),
    ("upgrade_delay_seconds", .u64 params.upgradeDelaySeconds),
    ("late_fee_bps", .u32 params.lateFeeBps)]

/-- The parameters of `initialize_defaults`. -/
def defaultParameters : ProtocolParameters where
  minGuaranteePercent := 20
  minReputationThreshold := 50
  fullRepaymentReward := 10
  defaultPenalty := 20
  largeLoanThreshold := 5000
  largeLoanDefaultPenalty := 30
  baseInterestBps := 0
  gracePeriodSeconds := 0
  upgradeDelaySeconds := 86400
  lateFeeBps := 500

/-- The length of a host vector fits 32 bits. -/
structure MultisigConfig where
  signers : List Address
  threshold : Nat
  length_lt : signers.length < 2 ^ 32
  deriving DecidableEq

/-- What a proposal can do. -/
inductive ProposalAction where
  | updateParameters (params : ProtocolParameters)
  | setAdmin (newAdmin : Address)
  | upgrade (newWasmHash : WasmHash)
  | updateSigners (config : MultisigConfig)
  | setLateFeeBps (bps : Nat)
  deriving DecidableEq

/-- An action with the approvals collected for it. -/
structure Proposal where
  id : Nat
  action : ProposalAction
  proposer : Address
  approvals : List Address
  /-- The signers at the time of the proposal. -/
  snapshot : List Address
  createdAt : Nat
  expiresAt : Nat
  executed : Bool
  invalidated : Bool
  deriving DecidableEq

/-! ## Storage -/

/-- The contract's keys: an absent one is `none`, or the value its reader falls back to. -/
structure Storage where
  admin : Option Address
  params : Option ProtocolParameters
  reentrancyLocked : Bool
  version : Nat
  multisig : Option MultisigConfig
  pendingMultisig : Option MultisigConfig
  /-- Every id ever given to a proposal. -/
  activeProposals : List Nat
  proposalCount : Nat
  proposals : Nat → Option Proposal

/-- Storage as deployed: every key missing. -/
def Storage.empty : Storage where
  admin := none
  params := none
  reentrancyLocked := false
  version := 1
  multisig := none
  pendingMultisig := none
  activeProposals := []
  proposalCount := 0
  proposals := fun _ => none

/-- The admin, `NotInitialized` before `initialize`. -/
def getAdmin (p : Storage) : Except Failure Address :=
  demand p.admin (.parameters .notInitialized)

/-- The parameters in force. -/
def getParameters (p : Storage) : Except Failure ProtocolParameters :=
  demand p.params (.parameters .notInitialized)

/-- The signers and threshold in force. -/
def getMultisig (p : Storage) : Except Failure MultisigConfig :=
  demand p.multisig (.parameters .multisigNotConfigured)

/-- The config that waits for its confirmation. -/
def getPendingMultisig (p : Storage) : Except Failure MultisigConfig :=
  demand p.pendingMultisig (.parameters .multisigNotConfigured)

/-- A stored proposal, or `ProposalNotFound`. -/
def getProposal (p : Storage) (id : Nat) : Except Failure Proposal :=
  demand (p.proposals id) (.parameters .proposalNotFound)

/-- Write a proposal under its id. -/
def setProposal (proposal : Proposal) (p : Storage) : Storage :=
  { p with proposals := Function.update p.proposals proposal.id (some proposal) }

/-- List a new id; none is ever taken off. -/
def addActiveProposal (id : Nat) (p : Storage) : Storage :=
  { p with activeProposals := p.activeProposals ++ [id] }

/-- The id is the count before it is raised. -/
def nextProposalId (p : Storage) : Except Failure (Nat × Storage) := do
  let next ← checkedU64 (.parameters .overflow) (p.proposalCount + 1)
  return (p.proposalCount, { p with proposalCount := next })

/-! ## Guards -/

/-- The caller is the stored admin; that it signed is asked elsewhere. -/
def requireAdmin (p : Storage) (caller : Address) : Except Failure Unit := do
  let admin ← getAdmin p
  ensure (admin = caller) (.parameters .notAdmin)

/-- The caller is a signer now. -/
def requireSigner (p : Storage) (caller : Address) : Except Failure Unit := do
  let config ← getMultisig p
  ensure (caller ∈ config.signers) (.parameters .notSigner)

/-- Take the lock, or `ReentrancyDetected`. -/
def enterNonReentrant (p : Storage) : Except Failure Storage := do
  ensure (p.reentrancyLocked = false) (.parameters .reentrancyDetected)
  return { p with reentrancyLocked := true }

/-- Release the lock. -/
def exitNonReentrant (p : Storage) : Storage := { p with reentrancyLocked := false }

/-- The bounds that are checked; the other fields may take any value. -/
def validateParameters (params : ProtocolParameters) : Except Failure Unit :=
  ensure (¬(params.minGuaranteePercent ≤ 0 ∨ 100 < params.minGuaranteePercent ∨
    params.largeLoanThreshold ≤ 0)) (.parameters .invalidParameters)

/-- The inner loop: `a` against the signers after it. -/
def rejectRepeated (a : Address) : List Address → Except Failure Unit
  | [] => .ok ()
  | b :: rest => do
    ensure (a ≠ b) (.parameters .duplicateSigner)
    rejectRepeated a rest

/-- The outer loop. -/
def rejectDuplicates : List Address → Except Failure Unit
  | [] => .ok ()
  | a :: rest => do
    rejectRepeated a rest
    rejectDuplicates rest

/-- A threshold of two at least and reachable, and no signer twice. -/
def validateMultisigConfig (config : MultisigConfig) : Except Failure Unit := do
  ensure (¬(config.threshold < 2 ∨ config.signers.length < config.threshold))
    (.parameters .invalidThreshold)
  rejectDuplicates config.signers

/-! ## Set-up -/

/-- Set the admin and the parameters, once. -/
def initializeContract (env : Env) (admin : Address) (params : ProtocolParameters)
    (p : Storage) : Except Failure Storage := do
  ensure (p.admin = none) (.parameters .alreadyInitialized)
  validateParameters params
  requireAuth env admin
  return { p with admin := some admin, params := some params }

/-- The same with the defaults. -/
def initializeDefaults (env : Env) (admin : Address) (p : Storage) : Except Failure Storage :=
  initializeContract env admin defaultParameters p

/-- `signers` and `threshold` come as one config. -/
def configureMultisig (env : Env) (config : MultisigConfig) (p : Storage) :
    Except Failure Storage := do
  let admin ← getAdmin p
  requireAuth env admin
  requireAdmin p admin
  ensure (¬(p.multisig.isSome ∨ p.pendingMultisig.isSome)) (.parameters .multisigAlreadyConfigured)
  validateMultisigConfig config
  let p ← enterNonReentrant p
  return exitNonReentrant { p with pendingMultisig := some config }

/-- The admin puts the pending config into force. -/
def confirmMultisig (env : Env) (p : Storage) : Except Failure Storage := do
  let admin ← getAdmin p
  requireAuth env admin
  requireAdmin p admin
  ensure (¬p.multisig.isSome) (.parameters .multisigAlreadyConfigured)
  let config ← getPendingMultisig p
  let p ← enterNonReentrant p
  return exitNonReentrant { p with multisig := some config, pendingMultisig := none }

/-! ## Proposals -/

/-- One week. -/
abbrev proposalTtlSeconds : Nat := 604800

/-- What is checked of an action when it is proposed. -/
def validateAction : ProposalAction → Except Failure Unit
  | .updateParameters params => validateParameters params
  | .updateSigners config => validateMultisigConfig config
  | _ => .ok ()

/-- The proposer's own approval is the first. -/
def propose (env : Env) (proposer : Address) (action : ProposalAction) (p : Storage) :
    Except Failure (Nat × Storage) := do
  requireAuth env proposer
  requireSigner p proposer
  validateAction action
  let config ← getMultisig p
  let expiresAt ← checkedU64 (.parameters .overflow) (env.timestamp + proposalTtlSeconds)
  let next ← nextProposalId p
  let proposal : Proposal := {
    id := next.1
    action
    proposer
    approvals := [proposer]
    snapshot := config.signers
    createdAt := env.timestamp
    expiresAt
    executed := false
    invalidated := false }
  return (next.1, addActiveProposal next.1 (setProposal proposal next.2))

/-- What `approve` and `execute` both ask of a proposal. -/
def requireOpen (env : Env) (proposal : Proposal) : Except Failure Unit := do
  ensure (proposal.executed = false) (.parameters .proposalAlreadyExecuted)
  ensure (proposal.invalidated = false) (.parameters .proposalInvalidated)
  ensure (env.timestamp ≤ proposal.expiresAt) (.parameters .proposalExpired)

/-- A signer, now and when the proposal was made, adds its approval. -/
def approve (env : Env) (signer : Address) (proposalId : Nat) (p : Storage) :
    Except Failure Storage := do
  requireAuth env signer
  requireSigner p signer
  let proposal ← getProposal p proposalId
  requireOpen env proposal
  ensure (signer ∉ proposal.approvals) (.parameters .duplicateSignature)
  ensure (signer ∈ proposal.snapshot) (.parameters .approverNotEligible)
  return setProposal { proposal with approvals := proposal.approvals ++ [signer] } p

/-! ## Execution -/

/-- Every stored approval is of a signer then and now. -/
def requireEligibleApprovers (config : MultisigConfig) (proposal : Proposal) :
    Except Failure Unit :=
  ensure (∀ approver ∈ proposal.approvals,
    ¬(approver ∉ proposal.snapshot ∨ approver ∉ config.signers)) (.parameters .approverNotEligible)

/-- A change of the signers needs one approval more, where there are as many
signers; `threshold + 1` may not fit 32 bits. -/
def requiredQuorum (config : MultisigConfig) : ProposalAction → Nat
  | .updateSigners _ =>
    if config.threshold + 1 < 2 ^ 32 then min (config.threshold + 1) config.signers.length
    else config.signers.length
  | _ => config.threshold

/-- Replace the parameters, checked once more. -/
def doUpdateParameters (params : ProtocolParameters) (p : Storage) : Except Failure Storage := do
  validateParameters params
  let _ ← getAdmin p
  return { p with params := some params }

/-- Replace the admin. -/
def doSetAdmin (newAdmin : Address) (p : Storage) : Except Failure Storage := do
  let _ ← getAdmin p
  return { p with admin := some newAdmin }

/-- A full version counter stays. -/
def raiseVersion (p : Storage) : Storage :=
  { p with version := if p.version + 1 < 2 ^ 32 then p.version + 1 else p.version }

/-- Swap in the code, which has to be uploaded; there is no timelock. -/
def doUpgrade (env : Env) (newWasmHash : WasmHash) (p : Storage) : Except Failure Storage := do
  updateCurrentContractWasm env newWasmHash
  return raiseVersion p

/-- Whether the action replaces the signers. -/
def ProposalAction.setsSigners : ProposalAction → Bool
  | .updateSigners _ => true
  | _ => false

/-- Close a proposal for other signers that is still open. -/
def invalidateProposal (p : Storage) (id : Nat) : Storage :=
  match p.proposals id with
  | some proposal =>
    if proposal.executed = false ∧ proposal.invalidated = false ∧ proposal.action.setsSigners then
      setProposal { proposal with invalidated := true } p
    else p
  | none => p

/-- Close every such proposal but the one being executed. -/
def invalidateSignerSetProposals (executingProposalId : Nat) (p : Storage) : Storage :=
  p.activeProposals.foldl
    (fun p id => if id = executingProposalId then p else invalidateProposal p id) p

/-- Replace signers and threshold, and close what was proposed to replace the old ones. -/
def doUpdateSigners (config : MultisigConfig) (executingProposalId : Nat) (p : Storage) :
    Except Failure Storage := do
  validateMultisigConfig config
  return invalidateSignerSetProposals executingProposalId { p with multisig := some config }

/-- Set the one field; its value is not checked. -/
def doSetLateFeeBps (bps : Nat) (p : Storage) : Except Failure Storage := do
  let params ← getParameters p
  let _ ← getAdmin p
  return { p with params := some { params with lateFeeBps := bps } }

/-- Put an action into force. -/
def doAction (env : Env) (proposal : Proposal) (p : Storage) : Except Failure Storage :=
  match proposal.action with
  | .updateParameters params => doUpdateParameters params p
  | .setAdmin newAdmin => doSetAdmin newAdmin p
  | .upgrade newWasmHash => doUpgrade env newWasmHash p
  | .updateSigners config => doUpdateSigners config proposal.id p
  | .setLateFeeBps bps => doSetLateFeeBps bps p

/-- The approvals collected are the authorisation. -/
def execute (env : Env) (proposalId : Nat) (p : Storage) : Except Failure Storage := do
  let proposal ← getProposal p proposalId
  requireOpen env proposal
  let config ← getMultisig p
  requireEligibleApprovers config proposal
  ensure (¬(proposal.approvals.length < requiredQuorum config proposal.action))
    (.parameters .thresholdNotMet)
  let p ← enterNonReentrant p
  let p ← doAction env proposal p
  return exitNonReentrant (setProposal { proposal with executed := true } p)

/-! ## Calls -/

/-- The entry points that write. -/
inductive Call where
  | initializeContract (admin : Address) (params : ProtocolParameters)
  | initializeDefaults (admin : Address)
  | configureMultisig (config : MultisigConfig)
  | confirmMultisig
  | propose (proposer : Address) (action : ProposalAction)
  | approve (signer : Address) (proposalId : Nat)
  | execute (proposalId : Nat)
  deriving DecidableEq

/-- What a call does to the storage. -/
def exec (env : Env) (call : Call) (p : Storage) : Except Failure Storage :=
  match call with
  | .initializeContract admin params => initializeContract env admin params p
  | .initializeDefaults admin => initializeDefaults env admin p
  | .configureMultisig config => configureMultisig env config p
  | .confirmMultisig => confirmMultisig env p
  | .propose proposer action => (propose env proposer action p).map Prod.snd
  | .approve signer proposalId => approve env signer proposalId p
  | .execute proposalId => execute env proposalId p

/-- A call, by anyone and at any ledger time. -/
structure Label where
  env : Env
  call : Call

def take (p : Storage) (l : Label) : Except Failure Storage := exec l.env l.call p

/-- One successful call. -/
def Step (p : Storage) (l : Label) (p' : Storage) : Prop := take p l = .ok p'

/-- The contract just deployed, with nothing stored. -/
def Deployed (p : Storage) : Prop := p = Storage.empty

end StepFi.Parameters

import StepFi.Parameters.Events

/-!
# What the governance log leaves out

The grace period, the upgrade delay and the late fee are in no event. Whatever a
run asks for them, the same callers could have asked for any other three at the same
times, with the same log (`log_hides_parameters`): how long a borrower has, and how
long an upgrade waits, is to be read from the contract itself.
-/

namespace StepFi.Parameters

open Lib

variable {env : Env} {p p' : Storage}
variable {tr : List (Storage × Label)} (grace delay : UInt64) (fee : UInt32)

/-! ## Other parameters -/

/-- Other delays and another fee in the place of a set's own. -/
def ProtocolParameters.altered (params : ProtocolParameters) : ProtocolParameters :=
  { params with
    gracePeriodSeconds := grace.toNat
    upgradeDelaySeconds := delay.toNat
    lateFeeBps := fee.toNat }

def ProposalAction.altered : ProposalAction → ProposalAction
  | .updateParameters params => .updateParameters (params.altered grace delay fee)
  | .setLateFeeBps _ => .setLateFeeBps fee.toNat
  | action => action

def Proposal.altered (proposal : Proposal) : Proposal :=
  { proposal with action := proposal.action.altered grace delay fee }

def Storage.altered (p : Storage) : Storage :=
  { p with
    params := p.params.map (ProtocolParameters.altered grace delay fee)
    proposals := fun id => (p.proposals id).map (Proposal.altered grace delay fee) }

/-- The same call, but for the delays and the fee it asks for. -/
def Call.altered : Call → Call
  | .initializeContract admin params => .initializeContract admin (params.altered grace delay fee)
  | .initializeDefaults admin =>
    .initializeContract admin (defaultParameters.altered grace delay fee)
  | .propose proposer action => .propose proposer (action.altered grace delay fee)
  | call => call

theorem setProposal_altered (proposal : Proposal) (p : Storage) :
    setProposal (proposal.altered grace delay fee) (p.altered grace delay fee) =
      (setProposal proposal p).altered grace delay fee := by
  have hproposals : Function.update (p.altered grace delay fee).proposals proposal.id
      (some (proposal.altered grace delay fee)) =
        ((setProposal proposal p).altered grace delay fee).proposals := by
    funext id
    simp only [Storage.altered, setProposal_proposals]
    by_cases hid : id = proposal.id
    · subst hid
      simp
    · simp [hid]
  simp only [setProposal, Proposal.altered] at hproposals ⊢
  rw [hproposals]
  rfl

theorem getProposal_altered (p : Storage) (id : Nat) : getProposal (p.altered grace delay fee) id =
    (getProposal p id).map (Proposal.altered grace delay fee) := by
  have hstored : (p.altered grace delay fee).proposals id =
      (p.proposals id).map (Proposal.altered grace delay fee) := rfl
  unfold getProposal
  rw [hstored]
  cases p.proposals id <;> rfl

theorem getParameters_altered (p : Storage) : getParameters (p.altered grace delay fee) =
    (getParameters p).map (ProtocolParameters.altered grace delay fee) := by
  unfold getParameters Storage.altered
  cases p.params <;> rfl

theorem setsSigners_altered (action : ProposalAction) :
    (action.altered grace delay fee).setsSigners = action.setsSigners := by
  cases action <;> rfl

theorem invalidateProposal_altered (p : Storage) (id : Nat) :
    invalidateProposal (p.altered grace delay fee) id =
      (invalidateProposal p id).altered grace delay fee := by
  have hstored : (p.altered grace delay fee).proposals id =
      (p.proposals id).map (Proposal.altered grace delay fee) := rfl
  unfold invalidateProposal
  rw [hstored]
  cases p.proposals id with
  | none => rfl
  | some proposal =>
    dsimp only [Option.map_some, Proposal.altered]
    rw [setsSigners_altered]
    split
    · exact setProposal_altered grace delay fee { proposal with invalidated := true } p
    · rfl

theorem sweep_altered (executing : Nat) (p : Storage) :
    invalidateSignerSetProposals executing (p.altered grace delay fee) =
      (invalidateSignerSetProposals executing p).altered grace delay fee := by
  unfold invalidateSignerSetProposals
  refine List.foldl_hom (Storage.altered grace delay fee) fun q id => ?_
  split
  · rfl
  · exact invalidateProposal_altered grace delay fee q id

/-! ## The same calls -/

theorem requiredQuorum_altered (config : MultisigConfig) (action : ProposalAction) :
    requiredQuorum config (action.altered grace delay fee) = requiredQuorum config action := by
  cases action <;> rfl

/-- Whether a set is valid does not depend on these three. -/
theorem validateAction_altered (action : ProposalAction) :
    validateAction (action.altered grace delay fee) = validateAction action := by
  cases action <;> rfl

theorem enterNonReentrant_altered : enterNonReentrant (p.altered grace delay fee) =
    (enterNonReentrant p).map (Storage.altered grace delay fee) :=
  bind_map fun _ => rfl

theorem initializeContract_altered (admin : Address) (params : ProtocolParameters) :
    initializeContract env admin (params.altered grace delay fee) (p.altered grace delay fee) =
      (initializeContract env admin params p).map (Storage.altered grace delay fee) := by
  have hnone : (p.altered grace delay fee).admin = p.admin := rfl
  unfold initializeContract
  rw [hnone]
  exact bind_map fun _ => bind_map fun _ => bind_map fun _ => rfl

theorem configureMultisig_altered (config : MultisigConfig) :
    configureMultisig env config (p.altered grace delay fee) =
      (configureMultisig env config p).map (Storage.altered grace delay fee) :=
  bind_map fun _ => bind_map fun _ => bind_map fun _ => bind_map fun _ => bind_map fun _ =>
    map_bind_of_eq (enterNonReentrant_altered grace delay fee) fun _ => rfl

theorem confirmMultisig_altered : confirmMultisig env (p.altered grace delay fee) =
    (confirmMultisig env p).map (Storage.altered grace delay fee) :=
  bind_map fun _ => bind_map fun _ => bind_map fun _ => bind_map fun _ => bind_map fun _ =>
    map_bind_of_eq (enterNonReentrant_altered grace delay fee) fun _ => rfl

theorem propose_altered (proposer : Address) (action : ProposalAction) :
    propose env proposer (action.altered grace delay fee) (p.altered grace delay fee) =
      (propose env proposer action p).map fun r => (r.1, r.2.altered grace delay fee) := by
  have hnext : nextProposalId (p.altered grace delay fee) =
      (nextProposalId p).map fun r => (r.1, r.2.altered grace delay fee) := bind_map fun _ => rfl
  unfold propose
  rw [validateAction_altered]
  refine bind_map fun _ => bind_map fun _ => bind_map fun _ => bind_map fun config =>
    bind_map fun expiresAt => map_bind_of_eq hnext fun next => ?_
  have hwritten := setProposal_altered grace delay fee {
    id := next.1, action, proposer, approvals := [proposer], snapshot := config.signers,
    createdAt := env.timestamp, expiresAt, executed := false, invalidated := false } next.2
  exact congrArg (fun q => Except.ok (next.1, addActiveProposal next.1 q)) hwritten

theorem approve_altered (signer : Address) (id : Nat) :
    approve env signer id (p.altered grace delay fee) =
      (approve env signer id p).map (Storage.altered grace delay fee) := by
  refine bind_map fun _ => bind_map fun _ =>
    map_bind_of_eq (getProposal_altered grace delay fee p id) fun proposal =>
      bind_map fun _ => bind_map fun _ => bind_map fun _ => ?_
  exact congrArg Except.ok (setProposal_altered grace delay fee
    { proposal with approvals := proposal.approvals ++ [signer] } p)

theorem doAction_altered (proposal : Proposal) (p : Storage) :
    doAction env (proposal.altered grace delay fee) (p.altered grace delay fee) =
      (doAction env proposal p).map (Storage.altered grace delay fee) := by
  have haction : (proposal.altered grace delay fee).action =
      proposal.action.altered grace delay fee := rfl
  unfold doAction
  rw [haction]
  cases proposal.action with
  | updateParameters params => exact bind_map fun _ => bind_map fun _ => rfl
  | setAdmin newAdmin => exact bind_map fun _ => rfl
  | upgrade newWasmHash => exact bind_map fun _ => rfl
  | updateSigners config =>
    refine bind_map fun _ => ?_
    exact congrArg Except.ok (sweep_altered grace delay fee proposal.id
      { p with multisig := some config })
  | setLateFeeBps bps =>
    exact map_bind_of_eq (getParameters_altered grace delay fee p) fun params =>
      bind_map fun _ => rfl

theorem execute_altered (id : Nat) : execute env id (p.altered grace delay fee) =
    (execute env id p).map (Storage.altered grace delay fee) := by
  refine map_bind_of_eq (getProposal_altered grace delay fee p id) fun proposal => bind_map fun _ =>
    bind_map fun config => bind_map fun _ => ?_
  have hquorum : (proposal.altered grace delay fee).action =
      proposal.action.altered grace delay fee := rfl
  rw [hquorum, requiredQuorum_altered]
  refine bind_map fun _ => map_bind_of_eq (enterNonReentrant_altered grace delay fee) fun q =>
    map_bind_of_eq (doAction_altered grace delay fee proposal q) fun q' => ?_
  have hwritten := setProposal_altered grace delay fee { proposal with executed := true } q'
  exact congrArg (fun q => Except.ok (exitNonReentrant q)) hwritten

theorem exec_altered (call : Call) :
    exec env (call.altered grace delay fee) (p.altered grace delay fee) =
      (exec env call p).map (Storage.altered grace delay fee) := by
  cases call with
  | initializeContract admin params => exact initializeContract_altered grace delay fee admin params
  | initializeDefaults admin =>
    exact initializeContract_altered grace delay fee admin defaultParameters
  | configureMultisig config => exact configureMultisig_altered grace delay fee config
  | confirmMultisig => exact confirmMultisig_altered grace delay fee
  | propose proposer action =>
    show Except.map Prod.snd (propose env proposer (action.altered grace delay fee)
      (p.altered grace delay fee)) = _
    rw [propose_altered]
    cases h : propose env proposer action p <;> simp [exec, h, Except.map]
  | approve signer id => exact approve_altered grace delay fee signer id
  | execute id => exact execute_altered grace delay fee id

/-! ## The same events -/

theorem invalidationEvents_altered (p : Storage) (id : Nat) :
    invalidationEvents (p.altered grace delay fee) id = invalidationEvents p id := by
  have hstored : (p.altered grace delay fee).proposals id =
      (p.proposals id).map (Proposal.altered grace delay fee) := rfl
  unfold invalidationEvents
  rw [hstored]
  cases p.proposals id with
  | none => rfl
  | some proposal =>
    dsimp only [Option.map_some, Proposal.altered]
    rw [setsSigners_altered]

theorem sweepEvents_altered (executing : Nat) (ids : List Nat) (p : Storage) :
    sweepEvents executing ids (p.altered grace delay fee) = sweepEvents executing ids p := by
  induction ids generalizing p with
  | nil => rfl
  | cons id ids ih =>
    simp only [sweepEvents]
    split
    · exact ih p
    · rw [invalidationEvents_altered, invalidateProposal_altered, ih]

theorem actionEvents_altered (proposal : Proposal) (p : Storage) :
    actionEvents env (proposal.altered grace delay fee) (p.altered grace delay fee) =
      actionEvents env proposal p := by
  have haction : (proposal.altered grace delay fee).action =
      proposal.action.altered grace delay fee := rfl
  unfold actionEvents
  rw [haction]
  cases proposal.action with
  | updateParameters params => rfl
  | setAdmin newAdmin => rfl
  | upgrade newWasmHash => rfl
  | updateSigners config =>
    have hsweep := sweepEvents_altered grace delay fee proposal.id p.activeProposals
      { p with multisig := some config }
    exact congrArg (fun events => Except.ok
      (Emitted.multisigConfigured config.threshold config.signers.length :: events)) hsweep
  | setLateFeeBps bps =>
    dsimp only [ProposalAction.altered]
    rw [getParameters_altered, map_bind]
    rfl

theorem emitted_altered (call : Call) :
    emitted env (call.altered grace delay fee) (p.altered grace delay fee) =
      emitted env call p := by
  cases call with
  | initializeContract admin params =>
    simp only [emitted, Call.altered, initializeContract_altered, map_bind]
    rfl
  | initializeDefaults admin =>
    simp only [emitted, Call.altered, initializeContract_altered, map_bind]
    rfl
  | configureMultisig config =>
    simp only [emitted, Call.altered, configureMultisig_altered, map_bind]
    rfl
  | confirmMultisig =>
    simp only [emitted, Call.altered, confirmMultisig_altered, map_bind]
    rfl
  | propose proposer action =>
    simp only [emitted, Call.altered, propose_altered, map_bind]
  | approve signer id =>
    simp only [emitted, Call.altered, approve_altered, map_bind, getProposal_altered]
    rfl
  | execute id =>
    simp only [emitted, Call.altered, execute_altered, map_bind, getProposal_altered,
      actionEvents_altered]

/-! ## Twin runs -/

/-- The step of the twin run. -/
def twin (x : Storage × Label) : Storage × Label :=
  (x.1.altered grace delay fee, ⟨x.2.env, x.2.call.altered grace delay fee⟩)

theorem Step.twin {l : Label} (h : Step p l p') :
    Step (p.altered grace delay fee) ⟨l.env, l.call.altered grace delay fee⟩
      (p'.altered grace delay fee) := by
  have h₁ : exec l.env l.call p = .ok p' := h
  show exec l.env (l.call.altered grace delay fee) (p.altered grace delay fee) = _
  rw [exec_altered, h₁]
  rfl

theorem Run.twin {p₀ : Storage} (h : Run Step p₀ tr p) :
    Run Step (p₀.altered grace delay fee) (tr.map (twin grace delay fee))
      (p.altered grace delay fee) := by
  induction h with
  | nil => exact .nil
  | snoc _ hs ih =>
    rw [List.map_append]
    exact ih.snoc (Step.twin grace delay fee hs)

theorem logged_twin (tr : List (Storage × Label)) :
    logged publishes (tr.map (twin grace delay fee)) = logged publishes tr := by
  unfold logged
  rw [List.flatMap_map]
  congr 1
  funext x
  unfold publishes
  rw [twin, emitted_altered]

/-- Every run from deployment has a twin of calls by the same callers at the same
times, with the same log, in which the grace period, the upgrade delay and the late
fee in force are any other three. -/
theorem log_hides_parameters {p₀ : Storage} (h : Run Step p₀ tr p) (h0 : Deployed p₀) :
    ∃ tr' t, Run Step p₀ tr' t ∧ tr'.map (·.2.env) = tr.map (·.2.env) ∧
      logged publishes tr' = logged publishes tr ∧
      t.params = p.params.map fun params => { params with
        gracePeriodSeconds := grace.toNat
        upgradeDelaySeconds := delay.toNat
        lateFeeBps := fee.toNat } := by
  have hstart : p₀.altered grace delay fee = p₀ := by
    rw [h0]
    rfl
  have htwin := Run.twin grace delay fee h
  rw [hstart] at htwin
  refine ⟨_, _, htwin, ?_, logged_twin grace delay fee tr, rfl⟩
  rw [List.map_map]
  rfl

/-- The proposal of a late fee of `300` bps executed, in the twin of `0` bps, with three
days of grace and no upgrade delay. -/
theorem log_hides_parameters_sample : ∃ (tr tr' : List (Storage × Label)) (p t : Storage),
    p.params = some { defaultParameters with lateFeeBps := 300 } ∧
    t.params = some { defaultParameters with
      gracePeriodSeconds := 259200, upgradeDelaySeconds := 0, lateFeeBps := 0 } ∧
    logged publishes tr' = logged publishes tr := by
  have hreplay : (replay take Storage.empty
      (sampleLabels ++ [⟨Env.signedBy [] 100, .execute 0⟩])).toOption.map (fun r => r.2.params) =
        some (some { defaultParameters with lateFeeBps := 300 }) := by decide +kernel
  obtain ⟨tr, p, hr, hparams⟩ := replay_observed hreplay
  have hrun : Run Step Storage.empty tr p := Run.of_replay (fun _ _ _ _ h => h) hr
  obtain ⟨tr', t, -, -, hlog, hdelays⟩ := log_hides_parameters 259200 0 0 hrun rfl
  refine ⟨tr, tr', p, t, hparams, ?_, hlog⟩
  rw [hdelays, hparams]
  rfl

end StepFi.Parameters

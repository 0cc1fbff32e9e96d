import StepFi.Parameters.Lifecycle
import StepFi.Lib.EventLog

/-!
# The governance log

What each call publishes (`emitted`), and an auditor who sees nothing else and
checks each event against those before it. The log of every run passes, and the
auditor's copy of the ballots, of the administrator, of the committee's size and
threshold and of seven parameters is exact (`log_tells_governance`).
-/

namespace StepFi.Parameters

open Lib

variable {env : Env} {call : Call} {p p' q : Storage} {proposal : Proposal}

/-! ## Events -/

/-- The parameters as `emit_parameters_updated` publishes them. -/
structure Published where
  minGuaranteePercent : Int
  minReputationThreshold : Nat
  fullRepaymentReward : Nat
  defaultPenalty : Nat
  largeLoanThreshold : Int
  largeLoanDefaultPenalty : Nat
  baseInterestBps : Nat
  deriving DecidableEq

def ProtocolParameters.published (params : ProtocolParameters) : Published where
  minGuaranteePercent := params.minGuaranteePercent
  minReputationThreshold := params.minReputationThreshold
  fullRepaymentReward := params.fullRepaymentReward
  defaultPenalty := params.defaultPenalty
  largeLoanThreshold := params.largeLoanThreshold
  largeLoanDefaultPenalty := params.largeLoanDefaultPenalty
  baseInterestBps := params.baseInterestBps

/-- The events, each with its topics and then its data. -/
inductive Emitted where
  | parametersUpdated (admin : Address) (params : Published)
  | adminUpdated (oldAdmin newAdmin : Address)
  | contractUpgraded (oldVersion newVersion timestamp : Nat)
  | multisigConfigured (threshold numSigners : Nat)
  | multisigConfigureProposed (admin : Address) (threshold : Nat) (signers : List Address)
  | proposalCreated (proposer : Address) (id : Nat)
  | proposalApproved (signer : Address) (id approvals : Nat)
  | proposalExecuted (id : Nat)
  | proposalInvalidated (id : Nat)
  deriving DecidableEq

def invalidationEvents (p : Storage) (id : Nat) : List Emitted :=
  match p.proposals id with
  | some proposal =>
    if proposal.executed = false ∧ proposal.invalidated = false ∧ proposal.action.setsSigners then
      [.proposalInvalidated id]
    else []
  | none => []

/-- The loop over the listed proposals, which writes as it publishes. -/
def sweepEvents (executingProposalId : Nat) : List Nat → Storage → List Emitted
  | [], _ => []
  | id :: ids, p =>
    if id = executingProposalId then sweepEvents executingProposalId ids p
    else invalidationEvents p id ++ sweepEvents executingProposalId ids (invalidateProposal p id)

def actionEvents (env : Env) (proposal : Proposal) (p : Storage) : Except Failure (List Emitted) :=
  match proposal.action with
  | .updateParameters params => do
    let admin ← getAdmin p
    return [.parametersUpdated admin params.published]
  | .setAdmin newAdmin => do
    let oldAdmin ← getAdmin p
    return [.adminUpdated oldAdmin newAdmin]
  | .upgrade _ => .ok [.contractUpgraded p.version (raiseVersion p).version env.timestamp]
  | .updateSigners config =>
    .ok (.multisigConfigured config.threshold config.signers.length ::
      sweepEvents proposal.id p.activeProposals { p with multisig := some config })
  | .setLateFeeBps bps => do
    let params ← getParameters p
    let admin ← getAdmin p
    return [.parametersUpdated admin { params with lateFeeBps := bps }.published]

/-- What a call publishes; one that fails publishes nothing. -/
def emitted (env : Env) (call : Call) (p : Storage) : Except Failure (List Emitted) :=
  match call with
  | .initializeContract admin params => do
    let _ ← initializeContract env admin params p
    return [.parametersUpdated admin params.published]
  | .initializeDefaults admin => do
    let _ ← initializeDefaults env admin p
    return [.parametersUpdated admin defaultParameters.published]
  | .configureMultisig config => do
    let _ ← configureMultisig env config p
    let admin ← getAdmin p
    return [.multisigConfigureProposed admin config.threshold config.signers]
  | .confirmMultisig => do
    let p' ← confirmMultisig env p
    let config ← getMultisig p'
    return [.multisigConfigured config.threshold config.signers.length]
  | .propose proposer action => do
    let (id, _) ← propose env proposer action p
    return [.proposalCreated proposer id]
  | .approve signer proposalId => do
    let p' ← approve env signer proposalId p
    let proposal ← getProposal p' proposalId
    return [.proposalApproved signer proposalId proposal.approvals.length]
  | .execute proposalId => do
    let _ ← execute env proposalId p
    let proposal ← getProposal p proposalId
    let events ← actionEvents env proposal p
    return events ++ [.proposalExecuted proposalId]

def publishes (p : Storage) (l : Label) : List Emitted :=
  (emitted l.env l.call p).toOption.getD []

/-! ## The auditor -/

/-- What an auditor keeps of a proposal. -/
structure Ballot where
  proposer : Address
  approvals : List Address
  executed : Bool
  invalidated : Bool
  deriving DecidableEq

def Ballot.isOpen (ballot : Ballot) : Bool := !ballot.executed && !ballot.invalidated

def Proposal.ballot (proposal : Proposal) : Ballot where
  proposer := proposal.proposer
  approvals := proposal.approvals
  executed := proposal.executed
  invalidated := proposal.invalidated

structure Seen where
  admin : Option Address
  params : Option Published
  /-- The threshold and the number of signers. -/
  committee : Option (Nat × Nat)
  pending : Option (Nat × List Address)
  version : Nat
  ballots : Nat → Option Ballot

def Storage.seen (p : Storage) : Seen where
  admin := p.admin
  params := p.params.map ProtocolParameters.published
  committee := p.multisig.map fun config => (config.threshold, config.signers.length)
  pending := p.pendingMultisig.map fun config => (config.threshold, config.signers)
  version := p.version
  ballots := fun id => (p.proposals id).map Proposal.ballot

/-- The ballot rewritten, if it passes. -/
def Seen.revise (v : Seen) (id : Nat) (check : Ballot → Bool) (f : Ballot → Ballot) :
    Option Seen :=
  match v.ballots id with
  | some ballot =>
    if check ballot then
      some { v with ballots := Function.update v.ballots id (some (f ballot)) }
    else none
  | none => none

/-- A committee is the one pending, or follows another. -/
def Seen.expects (v : Seen) (threshold numSigners : Nat) : Prop :=
  v.committee.isSome = true ∨
    v.pending.map (fun (t, signers) => (t, signers.length)) = some (threshold, numSigners)

instance (v : Seen) (threshold numSigners : Nat) : Decidable (v.expects threshold numSigners) :=
  inferInstanceAs (Decidable (_ ∨ _))

/-- What an event adds to what is known, if it agrees with that. -/
def audit (v : Seen) : Emitted → Option Seen
  | .parametersUpdated admin params =>
    if v.admin = none ∨ v.admin = some admin then
      some { v with admin := some admin, params := some params }
    else none
  | .adminUpdated oldAdmin newAdmin =>
    if v.admin = some oldAdmin then some { v with admin := some newAdmin } else none
  | .contractUpgraded oldVersion newVersion _ =>
    if v.version = oldVersion then some { v with version := newVersion } else none
  | .multisigConfigured threshold numSigners =>
    if v.expects threshold numSigners then
      some { v with committee := some (threshold, numSigners), pending := none }
    else none
  | .multisigConfigureProposed admin threshold signers =>
    if v.admin = some admin ∧ v.committee = none ∧ v.pending = none then
      some { v with pending := some (threshold, signers) }
    else none
  | .proposalCreated proposer id =>
    if v.ballots id = none then
      some { v with
        ballots := Function.update v.ballots id (some ⟨proposer, [proposer], false, false⟩) }
    else none
  | .proposalApproved signer id approvals =>
    v.revise id
      (fun ballot => ballot.isOpen && decide (signer ∉ ballot.approvals) &&
        decide (approvals = ballot.approvals.length + 1))
      fun ballot => { ballot with approvals := ballot.approvals ++ [signer] }
  | .proposalExecuted id =>
    v.revise id Ballot.isOpen fun ballot => { ballot with executed := true }
  | .proposalInvalidated id =>
    v.revise id Ballot.isOpen fun ballot => { ballot with invalidated := true }

/-- An auditor who found a fault reads no further. -/
def read (v : Option Seen) (e : Emitted) : Option Seen := v.bind fun v => audit v e

/-- What the log of a run says. -/
def audited (tr : List (Storage × Label)) : Option Seen :=
  (logged publishes tr).foldl read (some Storage.empty.seen)

/-! ## A call read off its events -/

/-- A proposal written is a ballot written. -/
theorem seen_setProposal (proposal : Proposal) (p : Storage) : (setProposal proposal p).seen =
    { p.seen with
      ballots := Function.update p.seen.ballots proposal.id (some proposal.ballot) } := by
  have hballots : (fun id => ((setProposal proposal p).proposals id).map Proposal.ballot) =
      Function.update p.seen.ballots proposal.id (some proposal.ballot) := by
    funext id
    rw [setProposal_proposals]
    by_cases hid : id = proposal.id
    · subst hid
      simp
    · simp [hid, Storage.seen]
  simp only [Storage.seen, hballots]
  rfl

/-- A proposal rewritten is its ballot revised. -/
theorem seen_revise {check : Ballot → Bool} {f : Ballot → Ballot} {new : Proposal}
    (hid : new.id = proposal.id) (hold : p.proposals proposal.id = some proposal)
    (hcheck : check proposal.ballot = true) (hnew : new.ballot = f proposal.ballot) :
    p.seen.revise proposal.id check f = some (setProposal new p).seen := by
  have hballot : p.seen.ballots proposal.id = some proposal.ballot := by
    simp [Storage.seen, hold]
  simp only [Seen.revise, hballot, hcheck, if_true, seen_setProposal, hid, hnew]

theorem Proposal.Open.ballot (h : proposal.Open) : proposal.ballot.isOpen = true := by
  simp [Ballot.isOpen, Proposal.ballot, h.executed, h.invalidated]

theorem invalidation_seen (hk : p.Keyed) (id : Nat) :
    (invalidationEvents p id).foldl read (some p.seen) = some (invalidateProposal p id).seen := by
  unfold invalidationEvents invalidateProposal
  cases hp : p.proposals id with
  | none => rfl
  | some proposal =>
    dsimp only
    obtain rfl := hk id proposal hp
    split
    · rename_i hopen
      have hopen : Proposal.Open proposal := ⟨hopen.1, hopen.2.1⟩
      show p.seen.revise proposal.id Ballot.isOpen
        (fun ballot => { ballot with invalidated := true }) = _
      exact seen_revise rfl hp hopen.ballot rfl
    · rfl

theorem invalidateProposal_keyed (hk : p.Keyed) (id : Nat) : (invalidateProposal p id).Keyed := by
  unfold invalidateProposal
  cases hp : p.proposals id with
  | none => exact hk
  | some proposal =>
    dsimp only
    split
    · intro other x hx
      rcases setProposal_cases hx with ⟨rfl, rfl⟩ | ⟨-, hx⟩
      · rfl
      · exact hk other x hx
    · exact hk

/-- The sweep, proposal by proposal. -/
theorem sweep_seen {executing : Nat} {ids : List Nat} (hk : p.Keyed) :
    (sweepEvents executing ids p).foldl read (some p.seen) =
      some (ids.foldl
        (fun p id => if id = executing then p else invalidateProposal p id) p).seen := by
  induction ids generalizing p with
  | nil => rfl
  | cons id ids ih =>
    rw [sweepEvents, List.foldl_cons]
    by_cases hid : id = executing
    · rw [if_pos hid, if_pos hid]
      exact ih hk
    · rw [if_neg hid, if_neg hid, List.foldl_append, invalidation_seen hk]
      exact ih (invalidateProposal_keyed hk id)

/-- The events of an action, under a committee and with none pending. -/
theorem Acts.events (env : Env) (hk : p.Keyed) (hmultisig : p.multisig.isSome = true)
    (hpending : p.pendingMultisig = none) (h : Acts p proposal q) :
    ∃ events, actionEvents env proposal p = .ok events ∧
      events.foldl read (some p.seen) = some q.seen := by
  unfold actionEvents
  cases h with
  | updateParameters admin params haction hadmin hvalid =>
    rw [haction]
    refine ⟨_, bind_ok.mpr ⟨admin, getAdmin_ok.mpr hadmin, rfl⟩, ?_⟩
    simp [read, audit, Storage.seen, hadmin]
  | setAdmin admin newAdmin haction hadmin =>
    rw [haction]
    refine ⟨_, bind_ok.mpr ⟨admin, getAdmin_ok.mpr hadmin, rfl⟩, ?_⟩
    simp [read, audit, Storage.seen, hadmin]
  | upgrade newWasmHash haction =>
    rw [haction]
    refine ⟨_, rfl, ?_⟩
    simp [read, audit, Storage.seen, raiseVersion]
  | updateSigners config haction hvalid =>
    rw [haction]
    refine ⟨_, rfl, ?_⟩
    have hkeyed : Storage.Keyed { p with multisig := some config } := hk
    have hstart : read (some p.seen)
        (.multisigConfigured config.threshold config.signers.length) =
          some (Storage.seen { p with multisig := some config }) := by
      simp [read, audit, Seen.expects, Storage.seen, hmultisig, hpending]
    rw [List.foldl_cons, hstart, sweep_seen hkeyed, sweep_fold hkeyed]
  | setLateFeeBps admin bps params haction hadmin hparams =>
    rw [haction]
    refine ⟨_, bind_ok.mpr ⟨params, getParameters_ok.mpr hparams,
      bind_ok.mpr ⟨admin, getAdmin_ok.mpr hadmin, rfl⟩⟩, ?_⟩
    simp [read, audit, Storage.seen, hadmin]

theorem propose_id {proposer : Address} {action : ProposalAction} {r : Nat × Storage}
    (h : propose env proposer action p = .ok r) : r.1 = p.proposalCount := by
  simp only [propose, nextProposalId, bind_ok, pure_ok] at h
  obtain ⟨-, -, -, -, -, -, -, -, -, -, _, ⟨next, -, rfl⟩, rfl⟩ := h
  rfl

/-- The events of a call carry the auditor over it. -/
theorem exec_seen (hs : p.Sound)
    (hpending : p.multisig.isSome = true → p.pendingMultisig = none)
    (h : exec env call p = .ok p') :
    ((emitted env call p).toOption.getD []).foldl read (some p.seen) = some p'.seen := by
  have hchange := exec_change hs.keyed hs.unlocked h
  cases call with
  | initializeContract admin params =>
    have h₁ : initializeContract env admin params p = .ok p' := h
    obtain ⟨hnone, -, -, rfl⟩ := initializeContract_spec h₁
    simp only [emitted, h₁]
    have hstart : p.seen.admin = none ∨ p.seen.admin = some admin := .inl hnone
    exact if_pos hstart
  | initializeDefaults admin =>
    have h₁ : initializeDefaults env admin p = .ok p' := h
    obtain ⟨hnone, -, -, rfl⟩ := initializeContract_spec h₁
    simp only [emitted, h₁]
    have hstart : p.seen.admin = none ∨ p.seen.admin = some admin := .inl hnone
    exact if_pos hstart
  | configureMultisig config =>
    have h₁ : configureMultisig env config p = .ok p' := h
    simp only [emitted, h₁]
    cases hchange with
    | setUp admin params hcall => rcases hcall with hcall | ⟨hcall, -⟩ <;> cases hcall
    | configure admin config hadmin hauth hnone hfree =>
      have hfirst : p.seen.admin = some admin ∧ p.seen.committee = none ∧
          p.seen.pending = none := by simp [Storage.seen, hadmin, hnone, hfree]
      rw [getAdmin_ok.mpr hadmin]
      exact if_pos hfirst
  | confirmMultisig =>
    have h₁ : confirmMultisig env p = .ok p' := h
    simp only [emitted, h₁]
    cases hchange with
    | setUp admin params hcall => rcases hcall with hcall | ⟨hcall, -⟩ <;> cases hcall
    | confirm admin config hadmin hauth hnone hproposed =>
      have hexpected : p.seen.expects config.threshold config.signers.length := by
        simp [Seen.expects, Storage.seen, hproposed]
      exact if_pos hexpected
  | propose proposer action =>
    obtain ⟨⟨id, p₁⟩, h₁, rfl⟩ := map_ok.mp h
    obtain rfl : id = p.proposalCount := propose_id h₁
    simp only [emitted, h₁]
    dsimp only at hchange ⊢
    cases hchange with
    | setUp admin params hcall => rcases hcall with hcall | ⟨hcall, -⟩ <;> cases hcall
    | propose _ _ config =>
      have hwritten := seen_setProposal (proposed p env proposer action config)
        { p with proposalCount := p.proposalCount + 1 }
      -- The next number is not taken.
      have hfresh : p.seen.ballots p.proposalCount = none := by
        cases hp : p.proposals p.proposalCount with
        | none => simp [Storage.seen, hp]
        | some x => exact absurd (hs.numbered _ x hp) (Nat.lt_irrefl _)
      exact (if_pos hfresh).trans (congrArg some hwritten.symm)
  | approve signer proposalId =>
    have h₁ : approve env signer proposalId p = .ok p' := h
    simp only [emitted, h₁]
    cases hchange with
    | setUp admin params hcall => rcases hcall with hcall | ⟨hcall, -⟩ <;> cases hcall
    | approve _ proposal config hauth hconfig hsigner hproposal hopen htime hnew =>
      have hwritten : getProposal (setProposal { proposal with
          approvals := proposal.approvals ++ [signer] } p) proposal.id =
          .ok { proposal with approvals := proposal.approvals ++ [signer] } :=
        getProposal_ok.mpr (Function.update_self ..)
      have happrovals : proposal.ballot.approvals = proposal.approvals := rfl
      rw [ok_bind, hwritten]
      show p.seen.revise proposal.id
        (fun ballot => ballot.isOpen && decide (signer ∉ ballot.approvals) &&
          decide ((proposal.approvals ++ [signer]).length = ballot.approvals.length + 1))
        (fun ballot => { ballot with approvals := ballot.approvals ++ [signer] }) = _
      refine seen_revise rfl hproposal ?_ rfl
      simp [hopen.ballot, happrovals, hnew]
  | execute proposalId =>
    have h₁ : execute env proposalId p = .ok p' := h
    cases hchange with
    | setUp admin params hcall => rcases hcall with hcall | ⟨hcall, -⟩ <;> cases hcall
    | execute proposal config q hproposal hchecked hacts =>
      have hmultisig := Option.isSome_of_eq_some hchecked.multisig
      obtain ⟨events, hevents, hseen⟩ := hacts.events env hs.keyed hmultisig (hpending hmultisig)
      have hstored : q.proposals proposal.id = some proposal := hacts.executing.trans hproposal
      simp only [emitted, h₁, ok_bind, getProposal_ok.mpr hproposal, hevents]
      show (events ++ [Emitted.proposalExecuted proposal.id]).foldl read (some p.seen) = _
      rw [List.foldl_append, hseen]
      show q.seen.revise proposal.id Ballot.isOpen
        (fun ballot => { ballot with executed := true }) = _
      exact seen_revise rfl hstored hchecked.opened.ballot rfl

/-- A committee pending is one not yet confirmed: there is none beside it. -/
theorem pending_of_reachable (h : Reachable Deployed Step p) :
    p.multisig.isSome = true → p.pendingMultisig = none := by
  have hinv : p.Sound ∧ (p.multisig.isSome = true → p.pendingMultisig = none) := by
    refine h.invariant (P := fun p => p.Sound ∧ (p.multisig.isSome = true →
      p.pendingMultisig = none)) (fun _ h0 => h0 ▸ ⟨.empty, fun _ => rfl⟩) ?_
    rintro p ⟨env, call⟩ p' - ⟨hs, hpending⟩ hstep
    refine ⟨Step.sound hs hstep, ?_⟩
    have hchange : Change p env call p' := Step.change hs hstep
    cases hchange with
    | setUp => exact hpending
    | configure admin config hadmin hauth hnone => simp [hnone]
    | confirm => exact fun _ => rfl
    | propose => exact hpending
    | approve => exact hpending
    | execute proposal config q hproposal hchecked hacts =>
      have hnone := hpending (Option.isSome_of_eq_some hchecked.multisig)
      cases hacts <;> exact fun _ => hnone
  exact hinv.2

theorem observes : Observes Deployed Step publishes read (some Storage.empty.seen)
    fun v p => v = some p.seen where
  start := by
    intro p h0
    rw [h0]
  step := by
    rintro p l p' _ hreach rfl hs
    exact exec_seen (sound_of_reachable hreach) (pending_of_reachable hreach) hs

/-- The log of every run passes the audit: the administrator and the version change
from what they were, numbers are given once, and only open ballots are approved, by
a new signer and counted right, executed or invalidated. And it says exactly who is
the administrator, how many signers there are and how many must sign, which
committee is pending, the seven published parameters, the version, and of every
proposal its proposer, its approvals in their order, and what became of it. -/
theorem log_tells_governance {p₀ : Storage} {tr : List (Storage × Label)} (h : Run Step p₀ tr p)
    (h0 : Deployed p₀) : audited tr = some p.seen :=
  observes.run h0 h

/-- Two signers make a committee of two: the log tells who approved, and that the
other proposal for the committee was invalidated. -/
theorem log_tells_governance_sample : ∃ (p : Storage) (tr : List (Storage × Label)),
    audited tr = some p.seen ∧ p.seen.committee = some (2, 2) ∧
    p.seen.ballots 1 = some ⟨22, [22, 21, 23], true, false⟩ ∧
    p.seen.ballots 2 = some ⟨23, [23], false, true⟩ := by
  have hreplay : (replay take Storage.empty (sampleLabels ++
      [⟨Env.signedBy [22] 90, .propose 22 (.updateSigners ⟨[21, 22], 2, by decide⟩)⟩,
        ⟨Env.signedBy [23] 90, .propose 23 (.updateSigners sampleConfig)⟩,
        ⟨Env.signedBy [21] 90, .approve 21 1⟩,
        ⟨Env.signedBy [23] 90, .approve 23 1⟩,
        ⟨Env.signedBy [] 100, .execute 1⟩])).toOption.map
      (fun r => (r.2.seen.committee, r.2.seen.ballots 1, r.2.seen.ballots 2)) =
        some (some (2, 2), some ⟨22, [22, 21, 23], true, false⟩,
          some ⟨23, [23], false, true⟩) := by decide +kernel
  obtain ⟨tr, p, hr, hobs⟩ := replay_observed hreplay
  simp only [Prod.mk.injEq] at hobs
  obtain ⟨hcommittee, hexecuted, hvoid⟩ := hobs
  have hrun : Run Step Storage.empty tr p := Run.of_replay (fun _ _ _ _ h => h) hr
  exact ⟨p, tr, log_tells_governance hrun rfl, hcommittee, hexecuted, hvoid⟩

end StepFi.Parameters

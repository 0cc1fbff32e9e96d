import StepFi.Parameters.Contract

/-!
# What each parameters call does

The checks as propositions, the sweep of the proposals as one table, and
`exec_change`: the successful calls with what they checked and what they wrote.
-/

namespace StepFi.Parameters

open Lib

variable {env : Env} {call : Call} {p p' q : Storage} {l : Label} {tr : List (Storage × Label)}
variable {id : Nat} {a : Address} {config : MultisigConfig} {params : ProtocolParameters}
variable {action : ProposalAction} {proposal x y : Proposal}

/-! ## Validity -/

structure ProtocolParameters.Valid (params : ProtocolParameters) : Prop where
  guarantee_pos : 1 ≤ params.minGuaranteePercent
  guarantee_le : params.minGuaranteePercent ≤ 100
  threshold_pos : 0 < params.largeLoanThreshold

structure MultisigConfig.Valid (config : MultisigConfig) : Prop where
  two_le : 2 ≤ config.threshold
  threshold_le : config.threshold ≤ config.signers.length
  distinct : config.signers.Nodup

def ProposalAction.Valid : ProposalAction → Prop
  | .updateParameters params => params.Valid
  | .updateSigners config => config.Valid
  | _ => True

theorem validateParameters_ok {u : Unit} : validateParameters params = .ok u ↔ params.Valid := by
  rw [validateParameters, ensure_ok]
  constructor
  · intro h
    constructor <;> omega
  · intro h
    have h1 := h.guarantee_pos
    have h2 := h.guarantee_le
    have h3 := h.threshold_pos
    omega

theorem defaultParameters_valid : defaultParameters.Valid := by
  constructor <;> decide

theorem rejectRepeated_ok {rest : List Address} {u : Unit} :
    rejectRepeated a rest = .ok u ↔ a ∉ rest := by
  induction rest with
  | nil => simp [rejectRepeated]
  | cons b rest ih =>
    rw [rejectRepeated]
    simp only [bind_ok, ensure_ok, exists_const, ih, List.mem_cons, not_or]

/-- The two loops find a repeated signer exactly when there is one. -/
theorem rejectDuplicates_ok {signers : List Address} {u : Unit} :
    rejectDuplicates signers = .ok u ↔ signers.Nodup := by
  induction signers with
  | nil => simp [rejectDuplicates]
  | cons a rest ih =>
    rw [rejectDuplicates]
    simp only [bind_ok, rejectRepeated_ok, exists_const, ih, List.nodup_cons]

theorem validateMultisigConfig_ok {u : Unit} :
    validateMultisigConfig config = .ok u ↔ config.Valid := by
  simp only [validateMultisigConfig, bind_ok, ensure_ok, exists_const, rejectDuplicates_ok]
  constructor
  · rintro ⟨hthreshold, hdistinct⟩
    exact ⟨by omega, by omega, hdistinct⟩
  · intro h
    have h1 := h.two_le
    have h2 := h.threshold_le
    exact ⟨by omega, h.distinct⟩

theorem validateAction_ok {u : Unit} : validateAction action = .ok u ↔ action.Valid := by
  cases action with
  | updateParameters params => exact validateParameters_ok
  | updateSigners config => exact validateMultisigConfig_ok
  | _ => simp [validateAction, ProposalAction.Valid]

/-! ## The quorum -/

/-- The elevated quorum, whatever the width of the threshold. -/
theorem requiredQuorum_updateSigners (config new : MultisigConfig) :
    requiredQuorum config (.updateSigners new)
      = min (config.threshold + 1) config.signers.length := by
  have hlen := config.length_lt
  simp only [requiredQuorum]
  split <;> omega

/-- The signers there are can reach every quorum. -/
theorem requiredQuorum_le (h : config.Valid) (action : ProposalAction) :
    requiredQuorum config action ≤ config.signers.length := by
  cases action with
  | updateSigners new =>
    rw [requiredQuorum_updateSigners]
    exact Nat.min_le_right _ _
  | _ => exact h.threshold_le

/-! ## The guards of a proposal -/

/-- Neither executed nor invalidated. -/
structure Proposal.Open (proposal : Proposal) : Prop where
  executed : proposal.executed = false
  invalidated : proposal.invalidated = false

@[simp] theorem requireOpen_ok {u : Unit} :
    requireOpen env proposal = .ok u ↔ proposal.Open ∧ env.timestamp ≤ proposal.expiresAt := by
  simp only [requireOpen, bind_ok, ensure_ok, exists_const]
  constructor
  · rintro ⟨hexecuted, hinvalidated, hexpires⟩
    exact ⟨⟨hexecuted, hinvalidated⟩, hexpires⟩
  · rintro ⟨hopen, hexpires⟩
    exact ⟨hopen.executed, hopen.invalidated, hexpires⟩

@[simp] theorem getAdmin_ok : getAdmin p = .ok a ↔ p.admin = some a := demand_ok

@[simp] theorem getParameters_ok : getParameters p = .ok params ↔ p.params = some params :=
  demand_ok

@[simp] theorem getMultisig_ok : getMultisig p = .ok config ↔ p.multisig = some config := demand_ok

@[simp] theorem getPendingMultisig_ok :
    getPendingMultisig p = .ok config ↔ p.pendingMultisig = some config := demand_ok

@[simp] theorem getProposal_ok : getProposal p id = .ok proposal ↔ p.proposals id = some proposal :=
  demand_ok

theorem setProposal_proposals (proposal : Proposal) (p : Storage) :
    (setProposal proposal p).proposals
      = Function.update p.proposals proposal.id (some proposal) := rfl

/-- After a write every stored proposal is the one written, or an old one. -/
theorem setProposal_cases (h : (setProposal proposal p).proposals id = some x) :
    id = proposal.id ∧ x = proposal ∨ id ≠ proposal.id ∧ p.proposals id = some x := by
  rw [setProposal_proposals] at h
  by_cases hid : id = proposal.id
  · subst hid
    rw [Function.update_self, Option.some.injEq] at h
    exact .inl ⟨rfl, h.symm⟩
  · rw [Function.update_of_ne hid] at h
    exact .inr ⟨hid, h⟩

theorem addActiveProposal_proposals (id : Nat) (p : Storage) :
    (addActiveProposal id p).proposals = p.proposals := rfl

@[simp] theorem enterNonReentrant_ok : enterNonReentrant p = .ok p' ↔
    p.reentrancyLocked = false ∧ { p with reentrancyLocked := true } = p' := by
  simp only [enterNonReentrant, bind_ok, pure_ok, ensure_ok, exists_const]

/-! ## The sweep -/

/-- A proposal once the signers have changed. -/
def Proposal.voided (proposal : Proposal) : Proposal :=
  if proposal.executed = false ∧ proposal.invalidated = false ∧ proposal.action.setsSigners then
    { proposal with invalidated := true }
  else proposal

theorem voided_idem (proposal : Proposal) : proposal.voided.voided = proposal.voided := by
  by_cases h : proposal.executed = false ∧ proposal.invalidated = false ∧
      proposal.action.setsSigners
  · simp [Proposal.voided, h]
  · simp only [Proposal.voided, if_neg h]

/-- Every proposal is stored under its own id. -/
def Storage.Keyed (p : Storage) : Prop :=
  ∀ id proposal, p.proposals id = some proposal → proposal.id = id

theorem invalidateProposal_eq (hk : p.Keyed) (id : Nat) : invalidateProposal p id =
    { p with
      proposals := Function.update p.proposals id ((p.proposals id).map Proposal.voided) } := by
  unfold invalidateProposal
  cases hp : p.proposals id with
  | none =>
    have hsame : Function.update p.proposals id none = p.proposals := by
      rw [← hp, Function.update_eq_self]
    rw [Option.map_none, hsame]
  | some proposal =>
    have hid := hk id proposal hp
    dsimp only
    split
    · rename_i hopen
      rw [Option.map_some, Proposal.voided, if_pos hopen, setProposal, hid]
    · rename_i hclosed
      rw [Option.map_some, Proposal.voided, if_neg hclosed, ← hp, Function.update_eq_self]

/-- The proposals once those listed in `ids`, all but `executing`, are voided. -/
def sweep (executing : Nat) (ids : List Nat) (proposals : Nat → Option Proposal) (id : Nat) :
    Option Proposal :=
  if id ∈ ids ∧ id ≠ executing then (proposals id).map Proposal.voided else proposals id

theorem sweep_fold {executing : Nat} {ids : List Nat} (hk : p.Keyed) :
    ids.foldl (fun p id => if id = executing then p else invalidateProposal p id) p =
      { p with proposals := sweep executing ids p.proposals } := by
  induction ids generalizing p with
  | nil =>
    have hsame : sweep executing [] p.proposals = p.proposals := by
      funext id
      simp [sweep]
    rw [List.foldl_nil, hsame]
  | cons head ids ih =>
    rw [List.foldl_cons]
    by_cases hhead : head = executing
    · subst hhead
      rw [if_pos rfl, ih hk]
      congr 1
      funext id
      by_cases hid : id = head <;> simp [sweep, hid]
    · rw [if_neg hhead, invalidateProposal_eq hk, ih]
      · congr 1
        funext id
        by_cases hid : id = head
        · subst hid
          by_cases hmem : id ∈ ids
          · cases hp : p.proposals id <;> simp [sweep, hhead, hmem, hp, voided_idem]
          · simp [sweep, hhead, hmem]
        · simp [sweep, hid]
      · -- A voided proposal keeps its id.
        intro id proposal hp
        dsimp only at hp
        by_cases hid : id = head
        · subst hid
          rw [Function.update_self, Option.map_eq_some_iff] at hp
          obtain ⟨old, hold, rfl⟩ := hp
          rw [← hk id old hold, Proposal.voided]
          split <;> rfl
        · exact hk id proposal (by rwa [Function.update_of_ne hid] at hp)

theorem voided_id (proposal : Proposal) : proposal.voided.id = proposal.id := by
  unfold Proposal.voided
  split <;> rfl

/-! ## Calls -/

/-- What an executed action writes. -/
inductive Acts (p : Storage) (proposal : Proposal) : Storage → Prop
  | updateParameters (admin : Address) (params : ProtocolParameters) :
      proposal.action = .updateParameters params → p.admin = some admin → params.Valid →
      Acts p proposal { p with params := some params }
  | setAdmin (admin newAdmin : Address) :
      proposal.action = .setAdmin newAdmin → p.admin = some admin →
      Acts p proposal { p with admin := some newAdmin }
  | upgrade (newWasmHash : WasmHash) : proposal.action = .upgrade newWasmHash →
      Acts p proposal (raiseVersion p)
  | updateSigners (config : MultisigConfig) : proposal.action = .updateSigners config →
      config.Valid → Acts p proposal { p with
        multisig := some config
        proposals := sweep proposal.id p.activeProposals p.proposals }
  | setLateFeeBps (admin : Address) (bps : Nat) (params : ProtocolParameters) :
      proposal.action = .setLateFeeBps bps → p.admin = some admin → p.params = some params →
      Acts p proposal { p with params := some { params with lateFeeBps := bps } }

/-- The action of a proposal, in a storage whose lock it does not touch. -/
theorem doAction_spec (hk : p.Keyed)
    (h : doAction env proposal { p with reentrancyLocked := true } = .ok q) :
    ∃ p', Acts p proposal p' ∧ q = { p' with reentrancyLocked := true } ∧
      p'.reentrancyLocked = p.reentrancyLocked := by
  unfold doAction at h
  split at h
  · rename_i params haction
    simp only [doUpdateParameters, bind_ok, pure_ok, validateParameters_ok] at h
    obtain ⟨_, hvalid, admin, hadmin, rfl⟩ := h
    rw [getAdmin_ok] at hadmin
    exact ⟨_, .updateParameters admin params haction hadmin hvalid, rfl, rfl⟩
  · rename_i newAdmin haction
    simp only [doSetAdmin, bind_ok, pure_ok] at h
    obtain ⟨admin, hadmin, rfl⟩ := h
    rw [getAdmin_ok] at hadmin
    exact ⟨_, .setAdmin admin newAdmin haction hadmin, rfl, rfl⟩
  · rename_i newWasmHash haction
    simp only [doUpgrade, bind_ok, pure_ok] at h
    obtain ⟨_, -, rfl⟩ := h
    exact ⟨_, .upgrade newWasmHash haction, rfl, rfl⟩
  · rename_i config haction
    simp only [doUpdateSigners, bind_ok, pure_ok, validateMultisigConfig_ok] at h
    obtain ⟨_, hvalid, rfl⟩ := h
    refine ⟨_, .updateSigners config haction hvalid, ?_, rfl⟩
    exact sweep_fold hk
  · rename_i bps haction
    simp only [doSetLateFeeBps, bind_ok, pure_ok, getParameters_ok, getAdmin_ok] at h
    obtain ⟨params, hparams, admin, hadmin, rfl⟩ := h
    exact ⟨_, .setLateFeeBps admin bps params haction hadmin hparams, rfl, rfl⟩

/-- What an execution has checked. -/
structure Executable (p : Storage) (env : Env) (proposal : Proposal) (config : MultisigConfig) :
    Prop where
  multisig : p.multisig = some config
  opened : proposal.Open
  unexpired : env.timestamp ≤ proposal.expiresAt
  eligible : ∀ a ∈ proposal.approvals, a ∈ proposal.snapshot ∧ a ∈ config.signers
  quorum : requiredQuorum config proposal.action ≤ proposal.approvals.length

/-- A new proposal. -/
def proposed (p : Storage) (env : Env) (proposer : Address) (action : ProposalAction)
    (config : MultisigConfig) : Proposal where
  id := p.proposalCount
  action := action
  proposer := proposer
  approvals := [proposer]
  snapshot := config.signers
  createdAt := env.timestamp
  expiresAt := env.timestamp + proposalTtlSeconds
  executed := false
  invalidated := false

/-- The successful calls: what each checked, and what it wrote. -/
inductive Change (p : Storage) (env : Env) : Call → Storage → Prop
  | setUp (admin : Address) (params : ProtocolParameters) {call : Call} :
      call = .initializeContract admin params ∨
        call = .initializeDefaults admin ∧ params = defaultParameters →
      p.admin = none → params.Valid → env.auths admin = true →
      Change p env call { p with admin := some admin, params := some params }
  | configure (admin : Address) (config : MultisigConfig) :
      p.admin = some admin → env.auths admin = true → p.multisig = none →
      p.pendingMultisig = none → config.Valid →
      Change p env (.configureMultisig config) { p with pendingMultisig := some config }
  | confirm (admin : Address) (config : MultisigConfig) :
      p.admin = some admin → env.auths admin = true → p.multisig = none →
      p.pendingMultisig = some config →
      Change p env .confirmMultisig
        { p with multisig := some config, pendingMultisig := none }
  | propose (proposer : Address) (action : ProposalAction) (config : MultisigConfig) :
      env.auths proposer = true → p.multisig = some config → proposer ∈ config.signers →
      action.Valid → Change p env (.propose proposer action)
        (addActiveProposal p.proposalCount (setProposal (proposed p env proposer action config)
          { p with proposalCount := p.proposalCount + 1 }))
  | approve (signer : Address) (proposal : Proposal) (config : MultisigConfig) :
      env.auths signer = true → p.multisig = some config → signer ∈ config.signers →
      p.proposals proposal.id = some proposal → proposal.Open →
      env.timestamp ≤ proposal.expiresAt → signer ∉ proposal.approvals →
      signer ∈ proposal.snapshot → Change p env (.approve signer proposal.id)
        (setProposal { proposal with approvals := proposal.approvals ++ [signer] } p)
  | execute (proposal : Proposal) (config : MultisigConfig) (q : Storage) :
      p.proposals proposal.id = some proposal → Executable p env proposal config →
      Acts p proposal q →
      Change p env (.execute proposal.id) (setProposal { proposal with executed := true } q)

theorem initializeContract_spec {admin : Address}
    (h : initializeContract env admin params p = .ok p') :
    p.admin = none ∧ params.Valid ∧ env.auths admin = true ∧
      p' = { p with admin := some admin, params := some params } := by
  simp only [initializeContract, bind_ok, pure_ok, ensure_ok, exists_const, requireAuth_ok,
    validateParameters_ok] at h
  obtain ⟨hnone, hvalid, hauth, rfl⟩ := h
  exact ⟨hnone, hvalid, hauth, rfl⟩

theorem exec_change (hk : p.Keyed) (hlock : p.reentrancyLocked = false)
    (h : exec env call p = .ok p') : Change p env call p' := by
  cases call with
  | initializeContract admin params =>
    obtain ⟨hnone, hvalid, hauth, rfl⟩ := initializeContract_spec h
    exact .setUp admin params (.inl rfl) hnone hvalid hauth
  | initializeDefaults admin =>
    obtain ⟨hnone, hvalid, hauth, rfl⟩ := initializeContract_spec h
    exact .setUp admin defaultParameters (.inr ⟨rfl, rfl⟩) hnone hvalid hauth
  | configureMultisig config =>
    simp only [exec, configureMultisig, bind_ok, pure_ok, ensure_ok, exists_const, requireAuth_ok,
      getAdmin_ok, validateMultisigConfig_ok, enterNonReentrant_ok, not_or,
      Bool.not_eq_true, Option.isSome_eq_false_iff, Option.isNone_iff_eq_none] at h
    obtain ⟨admin, hadmin, hauth, _, -, ⟨hnone, hpending⟩, hvalid, _, ⟨-, rfl⟩, rfl⟩ := h
    have hresult : exitNonReentrant { p with
        reentrancyLocked := true, pendingMultisig := some config }
        = { p with pendingMultisig := some config } := by
      simp only [exitNonReentrant, hlock]
    exact hresult ▸ .configure admin config hadmin hauth hnone hpending hvalid
  | confirmMultisig =>
    simp only [exec, confirmMultisig, bind_ok, pure_ok, ensure_ok, exists_const, requireAuth_ok,
      getAdmin_ok, getPendingMultisig_ok, enterNonReentrant_ok,
      Bool.not_eq_true, Option.isSome_eq_false_iff, Option.isNone_iff_eq_none] at h
    obtain ⟨admin, hadmin, hauth, _, -, hnone, config, hpending, _, ⟨-, rfl⟩, rfl⟩ := h
    have hresult : exitNonReentrant { p with
        reentrancyLocked := true, multisig := some config, pendingMultisig := none }
        = { p with multisig := some config, pendingMultisig := none } := by
      simp only [exitNonReentrant, hlock]
    exact hresult ▸ .confirm admin config hadmin hauth hnone hpending
  | propose proposer action =>
    obtain ⟨⟨id, p₁⟩, h₁, rfl⟩ := map_ok.mp h
    simp only [propose, bind_ok, pure_ok, exists_const, requireAuth_ok, requireSigner, ensure_ok,
      getMultisig_ok, validateAction_ok, nextProposalId, checkedU64_ok] at h₁
    obtain ⟨hauth, ⟨config, hconfig, hsigner⟩, hvalid, config', hconfig', expiresAt,
      ⟨-, hexpires⟩, _, ⟨next, ⟨-, hnext⟩, rfl⟩, hresult⟩ := h₁
    rw [hconfig, Option.some.injEq] at hconfig'
    subst hconfig'
    have hexpires' : expiresAt = env.timestamp + proposalTtlSeconds := by omega
    have hnext' : next = p.proposalCount + 1 := by omega
    subst hexpires' hnext'
    obtain ⟨rfl, rfl⟩ := Prod.mk.injEq .. ▸ hresult
    exact .propose proposer action config hauth hconfig hsigner hvalid
  | approve signer proposalId =>
    simp only [exec, approve, bind_ok, pure_ok, exists_const, requireAuth_ok, requireSigner,
      ensure_ok, getMultisig_ok, getProposal_ok, requireOpen_ok] at h
    obtain ⟨hauth, ⟨config, hconfig, hsigner⟩, proposal, hproposal, ⟨hopen, hexpires⟩,
      hnew, hsnapshot, rfl⟩ := h
    obtain rfl := hk proposalId proposal hproposal
    exact .approve signer proposal config hauth hconfig hsigner hproposal hopen hexpires hnew
      hsnapshot
  | execute proposalId =>
    simp only [exec, execute, bind_ok, pure_ok, exists_const, ensure_ok, getMultisig_ok,
      getProposal_ok, requireOpen_ok, requireEligibleApprovers, enterNonReentrant_ok] at h
    obtain ⟨proposal, hproposal, ⟨hopen, hexpires⟩, config, hconfig, heligible, hquorum, _,
      ⟨-, rfl⟩, q, hq, rfl⟩ := h
    obtain rfl := hk proposalId proposal hproposal
    obtain ⟨q', hacts, rfl, hlock'⟩ := doAction_spec hk hq
    have hunlocked : q'.reentrancyLocked = false := hlock'.trans hlock
    have hresult : exitNonReentrant (setProposal { proposal with executed := true }
        { q' with reentrancyLocked := true })
        = setProposal { proposal with executed := true } q' := by
      simp only [exitNonReentrant, setProposal, hunlocked]
    have hchecked : Executable p env proposal config := by
      refine ⟨hconfig, hopen, hexpires, ?_, by omega⟩
      intro a ha
      have hnot := heligible a ha
      rw [not_or, not_not, not_not] at hnot
      exact hnot
    exact hresult ▸ .execute proposal config q' hproposal hchecked hacts

end StepFi.Parameters

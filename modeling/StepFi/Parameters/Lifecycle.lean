import StepFi.Parameters.Committee

/-!
# The life of a proposal, and the power of a quorum

What is written in a proposal stays: a later state only has more approvals, and
once it is executed or invalidated nothing changes at all (`proposals_advance`).
And governance never locks up: from every state reached, signers enough for the
quorum carry any valid action through, on their own and at once
(`quorum_can_govern`).
-/

namespace StepFi.Parameters

open Lib

variable {env : Env} {call : Call} {p p' q t : Storage} {l : Label} {tr : List (Storage × Label)}
variable {id : Nat} {a : Address} {x y z : Proposal} {config : MultisigConfig}
variable {action : ProposalAction} {voters : List Address} {now : UInt64}
variable {wasm : WasmHash → Bool}

/-! ## Proposals advance -/

/-- What can have become of the proposal `x`. -/
structure Advanced (x y : Proposal) : Prop where
  id : y.id = x.id
  action : y.action = x.action
  proposer : y.proposer = x.proposer
  snapshot : y.snapshot = x.snapshot
  createdAt : y.createdAt = x.createdAt
  expiresAt : y.expiresAt = x.expiresAt
  approvals : x.approvals <+: y.approvals
  closed : ¬x.Open → y = x

theorem Advanced.refl (x : Proposal) : Advanced x x :=
  ⟨rfl, rfl, rfl, rfl, rfl, rfl, List.prefix_refl _, fun _ => rfl⟩

theorem Advanced.trans (h : Advanced x y) (h' : Advanced y z) : Advanced x z where
  id := h'.id.trans h.id
  action := h'.action.trans h.action
  proposer := h'.proposer.trans h.proposer
  snapshot := h'.snapshot.trans h.snapshot
  createdAt := h'.createdAt.trans h.createdAt
  expiresAt := h'.expiresAt.trans h.expiresAt
  approvals := h.approvals.trans h'.approvals
  closed := by
    intro hx
    obtain rfl := h.closed hx
    exact h'.closed hx

theorem Revision.advanced (h : Revision p env id x call y) : Advanced x y := by
  cases h with
  | keep => exact .refl x
  | approve signer hauth hopen =>
    exact ⟨rfl, rfl, rfl, rfl, rfl, rfl, List.prefix_append .., fun hx => absurd hopen hx⟩
  | execute config hchecked =>
    exact ⟨rfl, rfl, rfl, rfl, rfl, rfl, List.prefix_refl _, fun hx => absurd hchecked.opened hx⟩
  | void executing hne hopen =>
    exact ⟨rfl, rfl, rfl, rfl, rfl, rfl, List.prefix_refl _, fun hx => absurd hopen hx⟩

theorem Run.advanced (hs : p.Sound) (h : Run Step p tr t) (hx : p.proposals id = some x) :
    t.Sound ∧ ∃ y, t.proposals id = some y ∧ Advanced x y := by
  induction h with
  | nil => exact ⟨hs, x, hx, .refl x⟩
  | snoc _ hstep ih =>
    obtain ⟨hsound, y, hy, hadvanced⟩ := ih
    obtain ⟨z, hz, hrev⟩ := (Step.change hsound hstep).revision hsound hy
    exact ⟨Step.sound hsound hstep, z, hz, hadvanced.trans hrev.advanced⟩

/-- What is true of every stored proposal. -/
structure Proposal.WellFormed (x : Proposal) : Prop where
  valid : x.action.Valid
  lifetime : x.expiresAt = x.createdAt + proposalTtlSeconds
  /-- The proposer approves first. -/
  first : x.approvals.head? = some x.proposer
  eligible : ∀ a ∈ x.approvals, a ∈ x.snapshot
  distinct : x.approvals.Nodup
  once : ¬(x.executed = true ∧ x.invalidated = true)

theorem Revision.wellFormed (h : Revision p env id x call y) (hx : x.WellFormed) :
    y.WellFormed := by
  cases h with
  | keep => exact hx
  | approve signer hauth hopen hnew hsnapshot =>
    refine { hx with first := ?_, eligible := ?_, distinct := ?_ }
    · rw [List.head?_append, hx.first]
      rfl
    · intro a ha
      rcases List.mem_append.mp ha with hold | hlast
      · exact hx.eligible a hold
      · obtain rfl := List.mem_singleton.mp hlast
        exact hsnapshot
    · rw [← List.concat_eq_append, List.nodup_concat]
      exact ⟨hnew, hx.distinct⟩
  | execute config hchecked =>
    exact { hx with once := fun h => nomatch hchecked.opened.invalidated.symm.trans h.2 }
  | void executing hne hopen =>
    exact { hx with once := fun h => nomatch hopen.executed.symm.trans h.1 }

theorem proposed_wellFormed (hsigner : a ∈ config.signers) (hvalid : action.Valid) :
    (proposed p env a action config).WellFormed where
  valid := hvalid
  lifetime := rfl
  first := rfl
  eligible := by
    intro b hb
    obtain rfl := List.mem_singleton.mp hb
    exact hsigner
  distinct := List.nodup_singleton a
  once := fun h => nomatch h.1

/-- A proposal made has passed its check. -/
theorem Change.proposed_valid {proposer : Address}
    (h : Change p env (.propose proposer action) p') : action.Valid := by
  cases h with
  | setUp admin params hcall => rcases hcall with hcall | ⟨hcall, -⟩ <;> cases hcall
  | propose _ _ config hauth hconfig hsigner hvalid => exact hvalid

/-- The proposals of every run: numbered without a gap, each listed once in the
order they were made. -/
structure Filed (p : Storage) : Prop where
  sound : p.Sound
  listed : p.activeProposals = List.range p.proposalCount
  stored : ∀ id, (p.proposals id).isSome = true ↔ id < p.proposalCount
  wellFormed : ∀ id x, p.proposals id = some x → x.WellFormed

theorem Filed.empty : Filed Storage.empty where
  sound := .empty
  listed := rfl
  stored := by simp [Storage.empty]
  wellFormed := by
    intro id x hx
    cases hx

/-- Only a proposal is numbered and listed. -/
theorem Change.numbering (h : Change p env call p') :
    p'.proposalCount = p.proposalCount ∧ p'.activeProposals = p.activeProposals ∨
      p'.proposalCount = p.proposalCount + 1 ∧
        p'.activeProposals = p.activeProposals ++ [p.proposalCount] ∧
        ∃ x, p'.proposals p.proposalCount = some x := by
  cases h with
  | propose proposer action config =>
    exact .inr ⟨rfl, rfl, _, Function.update_self ..⟩
  | execute proposal config q hproposal hchecked hacts =>
    cases hacts <;> exact .inl ⟨rfl, rfl⟩
  | _ => exact .inl ⟨rfl, rfl⟩

theorem Filed.step (hf : Filed p) (h : Step p l p') : Filed p' := by
  have hchange := Step.change hf.sound h
  have hkept : ∀ id, (p.proposals id).isSome = true → (p'.proposals id).isSome = true := by
    intro id hid
    obtain ⟨x, hx⟩ := Option.isSome_iff_exists.mp hid
    obtain ⟨y, hy, -⟩ := hchange.revision hf.sound hx
    exact Option.isSome_of_eq_some hy
  have horigin : ∀ id, (p'.proposals id).isSome = true → (p.proposals id).isSome = true ∨
      id = p.proposalCount ∧ p'.proposalCount = p.proposalCount + 1 := by
    intro id hid
    obtain ⟨y, hy⟩ := Option.isSome_iff_exists.mp hid
    rcases hchange.origin hf.sound hy with ⟨x, hx, -⟩ | ⟨-, -, -, -, rfl, -⟩
    · exact .inl (Option.isSome_of_eq_some hx)
    · have hlt := (Step.sound hf.sound h).numbered _ _ hy
      rcases hchange.numbering with ⟨hcount, -⟩ | ⟨hcount, -⟩
      · omega
      · exact .inr ⟨rfl, hcount⟩
  refine ⟨Step.sound hf.sound h, ?_, ?_, ?_⟩
  · rcases hchange.numbering with ⟨hcount, hactive⟩ | ⟨hcount, hactive, -⟩
    · rw [hactive, hcount, hf.listed]
    · rw [hactive, hcount, hf.listed, List.range_succ]
  · intro id
    rcases hchange.numbering with ⟨hcount, -⟩ | ⟨hcount, -, x, hx⟩
    · rw [hcount, ← hf.stored id]
      refine ⟨fun hid => ?_, hkept id⟩
      rcases horigin id hid with hold | ⟨-, hnext⟩
      · exact hold
      · omega
    · rw [hcount, Nat.lt_succ_iff_lt_or_eq, ← hf.stored id]
      constructor
      · intro hid
        exact (horigin id hid).imp_right fun hnew => hnew.1
      · rintro (hold | rfl)
        · exact hkept id hold
        · exact Option.isSome_of_eq_some hx
  · intro id y hy
    rcases hchange.origin hf.sound hy with ⟨x, hx, hrev⟩ |
      ⟨proposer, action, config, hcall, -, -, -, hsigner, -, rfl⟩
    · exact hrev.wellFormed (hf.wellFormed id x hx)
    · exact proposed_wellFormed hsigner (hcall ▸ hchange).proposed_valid

theorem filed_of_reachable (h : Reachable Deployed Step p) : Filed p :=
  h.invariant (fun _ h0 => h0 ▸ .empty) fun _ _ _ _ hf hstep => hf.step hstep

/-- Over any run: no proposal is ever removed, and what it asks for, its proposer,
its signers and its dates never change, its approvals only grow at the end, and
once it is executed or invalidated it does not change at all; the proposals are
numbered `0, 1, ..` without a gap and listed once each, and each was valid, lives
for the time to live, and has the distinct approvals of signers, the proposer's
first. -/
theorem proposals_advance (hp : Reachable Deployed Step p) (h : Run Step p tr t) :
    (∀ id x, p.proposals id = some x → ∃ y, t.proposals id = some y ∧ Advanced x y) ∧
    t.activeProposals = List.range t.proposalCount ∧
    (∀ id, (t.proposals id).isSome = true ↔ id < t.proposalCount) ∧
    ∀ id x, t.proposals id = some x → x.WellFormed := by
  have hf := filed_of_reachable hp
  have hf' : Filed t := by
    obtain ⟨p₀, tr₀, h0, hr⟩ := hp
    exact filed_of_reachable ((hr.append h).reachable h0)
  refine ⟨fun id x hx => (Run.advanced hf.sound h hx).2, hf'.listed, hf'.stored, hf'.wellFormed⟩

/-- A proposal of `sampleLabels` on its way to its execution. -/
theorem proposals_advance_sample : ∃ (p t : Storage) (x y : Proposal),
    p.proposals 0 = some x ∧ x.approvals = [21] ∧ t.proposals 0 = some y ∧
    y.approvals = [21, 22] ∧ y.executed = true ∧ Advanced x y := by
  have hfirst : (replay take Storage.empty (sampleLabels.take 4)).toOption.map
      (fun r => ((r.2.proposals 0).map (·.approvals),
        (replay take r.2 [⟨Env.signedBy [22] 90, .approve 22 0⟩,
          ⟨Env.signedBy [] 100, .execute 0⟩]).toOption.map fun q =>
            (q.2.proposals 0).map fun y => (y.approvals, y.executed)))
        = some (some [21], some (some ([21, 22], true))) := by
    decide +kernel
  obtain ⟨tr, p, hr, hs⟩ := replay_observed hfirst
  obtain ⟨hbefore, hafter⟩ := Prod.mk.injEq .. ▸ hs
  obtain ⟨x, hx, happrovals⟩ := Option.map_eq_some_iff.mp hbefore
  obtain ⟨r, hr', hy⟩ := toOption_map_some.mp hafter
  obtain ⟨y, hy, hdone⟩ := Option.map_eq_some_iff.mp hy
  obtain ⟨happrovals', hexecuted⟩ := Prod.mk.injEq .. ▸ hdone
  have hreach : Reachable Deployed Step p :=
    (Run.of_replay (R := Step) (fun _ _ _ _ h => h) hr).reachable rfl
  have hlater : Run Step p r.1 r.2 :=
    Run.of_replay (fun _ _ _ _ h => h) hr'
  obtain ⟨y', hy', hadvanced⟩ := (proposals_advance hreach hlater).1 0 x hx
  obtain rfl := Option.some.inj (hy.symm.trans hy')
  exact ⟨p, r.2, x, y, hx, happrovals, hy, happrovals', hexecuted, hadvanced⟩

/-! ## What a quorum can do -/

theorem setProposal_self (hx : p.proposals x.id = some x) : setProposal x p = p := by
  rw [setProposal, ← hx, Function.update_eq_self]

theorem propose_succeeds {proposer : Address} (hauth : env.auths proposer = true)
    (hconfig : p.multisig = some config) (hsigner : proposer ∈ config.signers)
    (hvalid : action.Valid) (htime : env.timestamp + proposalTtlSeconds < 2 ^ 64)
    (hcount : p.proposalCount + 1 < 2 ^ 64) :
    Step p ⟨env, .propose proposer action⟩ (addActiveProposal p.proposalCount
      (setProposal (proposed p env proposer action config)
        { p with proposalCount := p.proposalCount + 1 })) := by
  simp only [Step, take, exec, map_ok, propose, bind_ok, pure_ok, exists_const, requireAuth_ok,
    requireSigner, ensure_ok, getMultisig_ok, validateAction_ok, nextProposalId, checkedU64_ok]
  have hexpires : (env.timestamp : Int) + (proposalTtlSeconds : Nat) < 2 ^ 64 := by omega
  have hnext : (p.proposalCount : Int) + 1 < 2 ^ 64 := by omega
  exact ⟨_, ⟨hauth, ⟨config, hconfig, hsigner⟩, hvalid, config, hconfig,
    env.timestamp + proposalTtlSeconds, ⟨hexpires, rfl⟩, _,
    ⟨p.proposalCount + 1, ⟨hnext, rfl⟩, rfl⟩, rfl⟩, rfl⟩

theorem approve_succeeds {signer : Address} (hauth : env.auths signer = true)
    (hconfig : p.multisig = some config) (hsigner : signer ∈ config.signers)
    (hx : p.proposals x.id = some x) (hopen : x.Open) (htime : env.timestamp ≤ x.expiresAt)
    (hnew : signer ∉ x.approvals) (hsnapshot : signer ∈ x.snapshot) :
    Step p ⟨env, .approve signer x.id⟩
      (setProposal { x with approvals := x.approvals ++ [signer] } p) := by
  simp only [Step, take, exec, approve, bind_ok, pure_ok, exists_const, requireAuth_ok,
    requireSigner, ensure_ok, getMultisig_ok, getProposal_ok, requireOpen_ok]
  exact ⟨hauth, ⟨config, hconfig, hsigner⟩, x, hx, ⟨hopen, htime⟩, hnew, hsnapshot, rfl⟩

/-- What an action puts into force. -/
def Enacts (p : Storage) : ProposalAction → Storage → Prop
  | .updateParameters params, p' => p'.params = some params
  | .setAdmin newAdmin, p' => p'.admin = some newAdmin
  | .upgrade _, p' => p'.version = (raiseVersion p).version
  | .updateSigners config, p' => p'.multisig = some config
  | .setLateFeeBps bps, p' => p'.params = p.params.map fun params =>
    { params with lateFeeBps := bps }

/-- The code an upgrade asks for is among the code uploaded. -/
def ProposalAction.CodeIn (wasm : WasmHash → Bool) : ProposalAction → Prop
  | .upgrade newWasmHash => wasm newWasmHash = true
  | _ => True

/-- A valid action does not fail once an administrator is set, an upgrade once its
code is uploaded. -/
theorem doAction_succeeds (hs : p.Sound) (hadmin : p.admin.isSome = true)
    (hvalid : x.action.Valid) (hcode : x.action.CodeIn env.uploaded) :
    ∃ q, doAction env x { p with reentrancyLocked := true } = .ok q ∧ Enacts p x.action q := by
  obtain ⟨admin, ha⟩ := Option.isSome_iff_exists.mp hadmin
  cases haction : x.action with
  | updateParameters params =>
    have hparams : params.Valid := by rwa [haction] at hvalid
    refine ⟨{ p with reentrancyLocked := true, params := some params }, ?_, rfl⟩
    simp only [doAction, haction, doUpdateParameters, bind_ok, pure_ok, validateParameters_ok,
      getAdmin_ok]
    exact ⟨(), hparams, admin, ha, trivial⟩
  | setAdmin newAdmin =>
    refine ⟨{ p with reentrancyLocked := true, admin := some newAdmin }, ?_, rfl⟩
    simp only [doAction, haction, doSetAdmin, bind_ok, pure_ok, getAdmin_ok]
    exact ⟨admin, ha, trivial⟩
  | upgrade newWasmHash =>
    have huploaded : env.uploaded newWasmHash = true := by rwa [haction] at hcode
    refine ⟨raiseVersion { p with reentrancyLocked := true }, ?_, rfl⟩
    simp only [doAction, haction, doUpgrade, bind_ok, pure_ok, updateCurrentContractWasm_ok]
    exact ⟨(), huploaded, trivial⟩
  | updateSigners config =>
    have hconfig : config.Valid := by rwa [haction] at hvalid
    refine ⟨{ p with
      reentrancyLocked := true
      multisig := some config
      proposals := sweep x.id p.activeProposals p.proposals }, ?_, rfl⟩
    simp only [doAction, haction, doUpdateSigners, bind_ok, pure_ok, validateMultisigConfig_ok]
    exact ⟨(), hconfig, sweep_fold hs.keyed⟩
  | setLateFeeBps bps =>
    obtain ⟨params, hparams⟩ := Option.isSome_iff_exists.mp (hs.setUp hadmin)
    refine ⟨{ p with
      reentrancyLocked := true, params := some { params with lateFeeBps := bps } }, ?_, ?_⟩
    · simp only [doAction, haction, doSetLateFeeBps, bind_ok, pure_ok, getParameters_ok,
        getAdmin_ok]
      exact ⟨params, hparams, admin, ha, rfl⟩
    · rw [Enacts, hparams]
      rfl

theorem execute_succeeds (hs : p.Sound) (hadmin : p.admin.isSome = true)
    (hvalid : x.action.Valid) (hcode : x.action.CodeIn env.uploaded)
    (hx : p.proposals x.id = some x) (hchecked : Executable p env x config) :
    ∃ p', Step p ⟨env, .execute x.id⟩ p' ∧ Enacts p x.action p' := by
  obtain ⟨q, hq, henacts⟩ := doAction_succeeds hs hadmin hvalid hcode
  refine ⟨exitNonReentrant (setProposal { x with executed := true } q), ?_, ?_⟩
  · simp only [Step, take, exec, execute, bind_ok, pure_ok, exists_const, ensure_ok,
      getMultisig_ok, getProposal_ok, requireOpen_ok, requireEligibleApprovers,
      enterNonReentrant_ok]
    refine ⟨x, hx, ⟨hchecked.opened, hchecked.unexpired⟩, config, hchecked.multisig, ?_,
      Nat.not_lt.mpr hchecked.quorum, _, ⟨hs.unlocked, rfl⟩, q, hq, rfl⟩
    rintro a ha (hno | hno)
    · exact hno (hchecked.eligible a ha).1
    · exact hno (hchecked.eligible a ha).2
  · cases haction : x.action <;> rw [haction] at henacts <;> exact henacts

/-- A call signed by `signers`, on a ledger that has the code `wasm`. -/
def signedOver (wasm : WasmHash → Bool) (signers : List Address) (now : UInt64) : Env :=
  { Env.signedBy signers now with uploaded := wasm }

/-- A step of the voters' own: none but they signed it. -/
def ByVoters (voters : List Address) (wasm : WasmHash → Bool) (now : UInt64) (l : Label) : Prop :=
  ∃ signers, (∀ a ∈ signers, a ∈ voters) ∧ l.env = signedOver wasm signers now

theorem signedOver_auths (wasm : WasmHash → Bool) (a : Address) (now : UInt64) :
    (signedOver wasm [a] now).auths a = true := by
  simp [Env.auths, signedOver, Env.signedBy]

/-- Voters who have not approved yet can all do so. -/
theorem approvals_collected {rest : List Address} (hrest : ∀ a ∈ rest, a ∈ voters)
    (hconfig : p.multisig = some config) (hx : p.proposals x.id = some x) (hopen : x.Open)
    (htime : now.toNat ≤ x.expiresAt) (hsnapshot : x.snapshot = config.signers)
    (hsigners : ∀ a ∈ rest, a ∈ config.signers) (hnew : (x.approvals ++ rest).Nodup) :
    ∃ tr, Run Step p tr (setProposal { x with approvals := x.approvals ++ rest } p) ∧
      ∀ step ∈ tr, ByVoters voters wasm now step.2 := by
  induction rest generalizing p x with
  | nil =>
    refine ⟨[], ?_, by simp⟩
    simp only [List.append_nil, setProposal_self hx]
    exact .nil
  | cons a rest ih =>
    obtain ⟨hvoter, hvoters⟩ := List.forall_mem_cons.mp hrest
    obtain ⟨hsigner, hothers⟩ := List.forall_mem_cons.mp hsigners
    rw [List.append_cons] at hnew
    have hfresh : a ∉ x.approvals := by
      have hhead := (List.nodup_append.mp hnew).1
      rw [← List.concat_eq_append, List.nodup_concat] at hhead
      exact hhead.1
    have hstep : Step p ⟨signedOver wasm [a] now, .approve a x.id⟩ _ :=
      approve_succeeds (signedOver_auths wasm a now) hconfig hsigner hx hopen htime hfresh
        (hsnapshot ▸ hsigner)
    obtain ⟨tr, hr, hby⟩ := ih hvoters
      (p := setProposal { x with approvals := x.approvals ++ [a] } p)
      (x := { x with approvals := x.approvals ++ [a] }) hconfig (Function.update_self ..)
      ⟨hopen.executed, hopen.invalidated⟩ htime hsnapshot hothers hnew
    refine ⟨(p, ⟨signedOver wasm [a] now, .approve a x.id⟩) :: tr, ?_,
      List.forall_mem_cons.mpr ⟨⟨[a], List.forall_mem_singleton.mpr hvoter, rfl⟩, hby⟩⟩
    rw [List.append_cons]
    refine Run.cons hstep ?_
    rwa [setProposal, setProposal, Function.update_idem] at hr

/-- A config was confirmed by an administrator, and there is one ever after. -/
theorem configured_admin (h : Reachable Deployed Step p) :
    p.multisig.isSome = true → p.admin.isSome = true := by
  refine (h.invariant (P := fun p => p.Sound ∧ (p.multisig.isSome = true → p.admin.isSome = true))
    ?_ ?_).2
  · rintro _ rfl
    exact ⟨.empty, fun h => nomatch h⟩
  · rintro s l s' - ⟨hs, hadmin⟩ hstep
    refine ⟨Step.sound hs hstep, ?_⟩
    have hchange := Step.change hs hstep
    generalize l.call = call at hchange
    cases hchange with
    | setUp => exact fun _ => rfl
    | configure => exact hadmin
    | confirm admin config ha => exact fun _ => Option.isSome_of_eq_some ha
    | propose => exact hadmin
    | approve => exact hadmin
    | execute proposal config q hproposal hchecked hacts =>
      have ha := hadmin (Option.isSome_of_eq_some hchecked.multisig)
      cases hacts with
      | setAdmin => exact fun _ => rfl
      | _ => exact fun _ => ha

/-- In every state reached, whatever was proposed, approved or left lying before:
signers enough for the quorum put any valid action into force by calls none but
they signed, all in one ledger; an upgrade when its code is uploaded there. -/
theorem quorum_can_govern (h : Reachable Deployed Step p) (hconfig : p.multisig = some config)
    (hvalid : action.Valid) (hcode : action.CodeIn wasm)
    (hsigners : ∀ a ∈ voters, a ∈ config.signers) (hdistinct : voters.Nodup)
    (hquorum : requiredQuorum config action ≤ voters.length)
    (htime : now.toNat + proposalTtlSeconds < 2 ^ 64) (hcount : p.proposalCount + 1 < 2 ^ 64) :
    ∃ tr p', Run Step p tr p' ∧ (∀ step ∈ tr, ByVoters voters wasm now step.2) ∧
      Enacts p action p' := by
  have hs := sound_of_reachable h
  have hadmin := configured_admin h (Option.isSome_of_eq_some hconfig)
  have htwo := (hs.multisig config hconfig).two_le
  have hlength := (hs.multisig config hconfig).threshold_le
  cases voters with
  | nil =>
    cases action with
    | updateSigners new =>
      rw [requiredQuorum_updateSigners, List.length_nil] at hquorum
      omega
    | _ =>
      have hzero : config.threshold ≤ 0 := hquorum
      omega
  | cons proposer rest =>
    obtain ⟨hproposer, hothers⟩ := List.forall_mem_cons.mp hsigners
    let x := proposed p (signedOver wasm [proposer] now) proposer action config
    let p₁ := addActiveProposal p.proposalCount
      (setProposal x { p with proposalCount := p.proposalCount + 1 })
    have hfirst : Step p ⟨signedOver wasm [proposer] now, .propose proposer action⟩ p₁ :=
      propose_succeeds (signedOver_auths wasm proposer now) hconfig hproposer hvalid htime hcount
    have hs₁ : p₁.Sound := Step.sound hs hfirst
    have hrest : ∀ a ∈ rest, a ∈ proposer :: rest := fun a ha => List.mem_cons_of_mem _ ha
    obtain ⟨tr, hr, hby⟩ := approvals_collected (p := p₁) (x := x) hrest hconfig
      (Function.update_self ..) ⟨rfl, rfl⟩ (Nat.le_add_right ..) rfl hothers hdistinct
    let y : Proposal := { x with approvals := proposer :: rest }
    have hy : (setProposal y p₁).proposals y.id = some y := Function.update_self ..
    have hchecked : Executable (setProposal y p₁) (signedOver wasm [] now) y config :=
      ⟨hconfig, ⟨rfl, rfl⟩, Nat.le_add_right .., fun a ha => ⟨hsigners a ha, hsigners a ha⟩,
        hquorum⟩
    obtain ⟨p', hlast, henacts⟩ := execute_succeeds
      (hs₁.revise (y := y) (Function.update_self ..)) hadmin hvalid hcode hy hchecked
    refine ⟨_, p', Run.cons hfirst (hr.snoc hlast), ?_, ?_⟩
    · refine List.forall_mem_cons.mpr ⟨⟨[proposer], ?_, rfl⟩, List.forall_mem_append.mpr
        ⟨hby, List.forall_mem_singleton.mpr ⟨[], ?_, rfl⟩⟩⟩
      · exact List.forall_mem_singleton.mpr List.mem_cons_self
      · exact fun a ha => nomatch ha
    · cases action <;> exact henacts

theorem quorum_can_govern_sample : ∃ p p' : Storage, p.proposals 0 ≠ none ∧
    p'.multisig = some ⟨[22, 24], 2, by decide⟩ := by
  have hrun : (replay take Storage.empty sampleLabels).toOption.map
      (fun r => (r.2.multisig, r.2.proposalCount, (r.2.proposals 0).isSome))
        = some (some sampleConfig, 1, true) := by
    decide +kernel
  obtain ⟨_, p, hreach, hs⟩ :=
    Reachable.of_replay (I := Deployed) (R := Step) hrun rfl fun _ _ _ h => h
  simp only [Prod.mk.injEq] at hs
  obtain ⟨hconfig, hcount, hopen⟩ := hs
  have hgovern : ∃ tr p', Run Step p tr p' ∧
      (∀ step ∈ tr, ByVoters [22, 23, 21] (fun _ => false) 95 step.2) ∧
      Enacts p (.updateSigners ⟨[22, 24], 2, by decide⟩) p' :=
    quorum_can_govern hreach hconfig ⟨by decide, by decide, by decide⟩ trivial (by decide)
      (by decide) (by decide) (by decide) (by rw [hcount]; decide)
  obtain ⟨_, p', -, -, henacts⟩ := hgovern
  exact ⟨p, p', Option.isSome_iff_ne_none.mp hopen, henacts⟩

end StepFi.Parameters

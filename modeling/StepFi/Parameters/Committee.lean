import StepFi.Parameters.Governance

/-!
# Changes of the signers

The sweep that an executed `UpdateSigners` makes leaves no other such proposal
open (`Step.swept`). So one that is open was made under the signers of now, and
of several open at the same time at most one is ever executed.
-/

namespace StepFi.Parameters

open Lib

variable {env : Env} {call : Call} {p p' : Storage} {l : Label} {tr : List (Storage × Label)}
variable {id : Nat} {x y : Proposal}

/-! ## Steps that set the signers -/

/-- A confirmation, or an execution of an `UpdateSigners` proposal. -/
def SetsSigners (step : Storage × Label) : Prop :=
  step.2.call = .confirmMultisig ∨ ∃ id x, step.2.call = .execute id ∧
    step.1.proposals id = some x ∧ x.action.setsSigners = true

theorem Step.signers_kept (hs : p.Sound) (h : Step p l p') (hne : ¬SetsSigners (p, l)) :
    p'.multisig = p.multisig := by
  have hchange := Step.change hs h
  rw [SetsSigners, not_or] at hne
  obtain ⟨hconfirm, hexecute⟩ := hne
  dsimp only at hconfirm hexecute
  generalize l.call = call at hchange hconfirm hexecute
  cases hchange with
  | confirm => exact absurd rfl hconfirm
  | execute proposal config q hproposal hchecked hacts =>
    cases hacts with
    | updateSigners new haction =>
      refine absurd ⟨proposal.id, proposal, rfl, hproposal, ?_⟩ hexecute
      rw [haction]
      rfl
    | _ => rfl
  | _ => rfl

/-- What an action writes that sets the signers. -/
theorem Acts.setsSigners {q : Storage} (h : Acts p x q) (hset : x.action.setsSigners = true) :
    ∃ new, x.action = .updateSigners new ∧ q = { p with
      multisig := some new
      proposals := sweep x.id p.activeProposals p.proposals } := by
  cases h with
  | updateSigners new haction => exact ⟨new, haction, rfl⟩
  | updateParameters admin params haction => simp [haction, ProposalAction.setsSigners] at hset
  | setAdmin admin newAdmin haction => simp [haction, ProposalAction.setsSigners] at hset
  | upgrade newWasmHash haction => simp [haction, ProposalAction.setsSigners] at hset
  | setLateFeeBps admin bps params haction => simp [haction, ProposalAction.setsSigners] at hset

/-- A voided proposal that would set the signers is not open. -/
theorem voided_closed (h : x.voided.action.setsSigners = true) : ¬x.voided.Open := by
  intro hopen
  by_cases hcond : x.executed = false ∧ x.invalidated = false ∧ x.action.setsSigners
  · rw [Proposal.voided, if_pos hcond] at hopen
    cases hopen.invalidated
  · rw [Proposal.voided, if_neg hcond] at hopen h
    exact hcond ⟨hopen.executed, hopen.invalidated, h⟩

/-- After an executed `UpdateSigners` no such proposal is open: the sweep reached
every other one, and this one is marked executed. -/
theorem Step.swept (hs : p.Sound) (h : Step p l p') (hcall : l.call = .execute id)
    (hx : p.proposals id = some x) (hset : x.action.setsSigners = true) {j : Nat}
    (hy : p'.proposals j = some y) (hset' : y.action.setsSigners = true) : ¬y.Open := by
  obtain ⟨proposal, config, q, rfl, hproposal, -, hacts, rfl⟩ := Step.executes hs h hcall
  rw [hproposal, Option.some.injEq] at hx
  subst hx
  rcases setProposal_cases hy with ⟨rfl, rfl⟩ | ⟨hj, hy⟩
  · intro hopen
    cases hopen.executed
  · obtain ⟨new, -, rfl⟩ := hacts.setsSigners hset
    have hswept : sweep proposal.id p.activeProposals p.proposals j = some y := hy
    obtain ⟨z, hz, -⟩ := sweep_some hswept
    rw [sweep, if_pos ⟨hs.listed j z hz, hj⟩, hz, Option.map_some, Option.some.injEq] at hswept
    subst hswept
    exact voided_closed hset'

/-! ## Open proposals are current -/

/-- The proposal was made in the run, and the config has not been set since. -/
def ProposedSince (tr : List (Storage × Label)) (p : Storage) (id : Nat) (x : Proposal) : Prop :=
  ∃ before q l after, tr = before ++ (q, l) :: after ∧ l.call = .propose x.proposer x.action ∧
    q.proposalCount = id ∧ q.multisig = p.multisig ∧
    ∀ step ∈ after, ¬SetsSigners step ∧ step.1.multisig = p.multisig

theorem ProposedSince.snoc (h : ProposedSince tr p id x) (hne : ¬SetsSigners (p, l))
    (hkept : p'.multisig = p.multisig) (hproposer : y.proposer = x.proposer)
    (haction : y.action = x.action) : ProposedSince (tr ++ [(p, l)]) p' id y := by
  obtain ⟨before, q, l₀, after, rfl, hcall, hid, hconfig, hafter⟩ := h
  refine ⟨before, q, l₀, after ++ [(p, l)], by simp, ?_, hid, hconfig.trans hkept.symm, ?_⟩
  · rw [hproposer, haction]
    exact hcall
  · intro step hstep
    rcases List.mem_append.mp hstep with hold | hlast
    · obtain ⟨hset, hsame⟩ := hafter step hold
      exact ⟨hset, hsame.trans hkept.symm⟩
    · obtain rfl := List.mem_singleton.mp hlast
      exact ⟨hne, hkept.symm⟩

theorem Revision.proposer (h : Revision p env id x call y) : y.proposer = x.proposer := by
  cases h <;> rfl

/-- Every open `UpdateSigners` proposal was made under the signers of now. -/
structure Committee (tr : List (Storage × Label)) (p : Storage) : Prop where
  sound : p.Sound
  current : ∀ id x, p.proposals id = some x → x.Open → x.action.setsSigners = true →
    (∃ config, p.multisig = some config ∧ x.snapshot = config.signers) ∧ ProposedSince tr p id x

theorem Committee.empty : Committee [] Storage.empty where
  sound := .empty
  current := by
    intro id x hx
    cases hx

theorem Committee.step (hc : Committee tr p) (h : Step p l p') :
    Committee (tr ++ [(p, l)]) p' := by
  refine ⟨Step.sound hc.sound h, ?_⟩
  intro id y hy hopen hset
  have hchange := Step.change hc.sound h
  rcases hchange.origin hc.sound hy with ⟨x, hx, hrev⟩ |
    ⟨proposer, action, config, hcall, hid, -, hconfig, -, hkept, rfl⟩
  · have hset' : x.action.setsSigners = true := hrev.action ▸ hset
    have hopen' : x.Open := by
      by_contra hclosed
      exact hrev.closed hclosed hopen
    obtain ⟨⟨config, hconfig, hsnapshot⟩, hsince⟩ := hc.current id x hx hopen' hset'
    -- A confirmation would have found no config, an executed change would have swept.
    have hne : ¬SetsSigners (p, l) := by
      rintro (hconfirm | ⟨j, z, hcall, hz, hsets⟩)
      · have hnone := Step.confirms hc.sound h hconfirm
        rw [hconfig] at hnone
        cases hnone
      · exact Step.swept hc.sound h hcall hz hsets hy hset hopen
    have hkept := Step.signers_kept hc.sound h hne
    exact ⟨⟨config, hkept.trans hconfig, hrev.snapshot.trans hsnapshot⟩,
      hsince.snoc hne hkept hrev.proposer hrev.action⟩
  · refine ⟨⟨config, hkept.trans hconfig, rfl⟩, tr, p, l, [], rfl, hcall, hid.symm, hkept.symm, ?_⟩
    intro step hstep
    cases hstep

theorem Run.committee {p₀ : Storage} (h : Run Step p₀ tr p) (h0 : Deployed p₀) :
    Committee tr p :=
  h.history (P := Committee) (h0 ▸ .empty) fun _ _ _ _ hc hstep => hc.step hstep

/-! ## At most one of them is executed -/

/-- The proposals are stored, and would set the signers. -/
def SignerProposals (ids : Finset Nat) (p : Storage) : Prop :=
  ∀ id ∈ ids, ∃ x, p.proposals id = some x ∧ x.action.setsSigners = true

theorem Step.signerProposals {ids : Finset Nat} (hs : p.Sound) (h : Step p l p')
    (hids : SignerProposals ids p) : SignerProposals ids p' := by
  intro id hid
  obtain ⟨x, hx, hset⟩ := hids id hid
  obtain ⟨y, hy, hrev⟩ := (Step.change hs h).revision hs hx
  exact ⟨y, hy, hrev.action ▸ hset⟩

theorem Run.signer_executions_le_one {ids : Finset Nat} (h : Run Step p tr p') (hs : p.Sound)
    (hids : SignerProposals ids p) : executions ids tr ≤ 1 := by
  refine h.countP_le_one (P := fun q => q.Sound ∧ SignerProposals ids q)
    (E := fun l => l.call.executes ids) (Q := fun q => ∀ id ∈ ids, Closed id q) ⟨hs, hids⟩
    (fun _ _ _ hq hstep => ⟨Step.sound hq.1 hstep, hstep.signerProposals hq.1 hq.2⟩) ?_ ?_
  · intro q l q' ⟨hs, hids⟩ hstep hcall j hj
    obtain ⟨id, hid, hexecute⟩ := Call.executes_iff.mp hcall
    obtain ⟨x, hx, hset⟩ := hids id hid
    obtain ⟨y, hy, hset'⟩ := hstep.signerProposals hs hids j hj
    exact ⟨y, hy, Step.swept hs hstep hexecute hx hset hy hset'⟩
  · intro q l q' ⟨hs, _⟩ hstep hspent
    refine ⟨fun id hid => (Step.closed hs hstep (hspent id hid)).1, ?_⟩
    rw [Bool.eq_false_iff, Ne, Call.executes_iff]
    rintro ⟨id, hid, hcall⟩
    exact (Step.closed hs hstep (hspent id hid)).2 hcall

/-- Over any run: every `UpdateSigners` proposal that is neither executed nor
invalidated was made after the signers were last set, and its snapshot is the
current signers; so the config that one replaces when it is executed is the one it
was proposed under, and of any such proposals open at the same time at most one
is executed from then on. -/
theorem signer_changes_are_current {p₀ : Storage} (h : Run Step p₀ tr p) (h0 : Deployed p₀) :
    (∀ id x, p.proposals id = some x → x.executed = false → x.invalidated = false →
      x.action.setsSigners = true →
      (∃ config, p.multisig = some config ∧ x.snapshot = config.signers) ∧
        ProposedSince tr p id x) ∧
    (∀ env id p' x new, Step p ⟨env, .execute id⟩ p' → p.proposals id = some x →
      x.action = .updateSigners new → p'.multisig = some new ∧ ProposedSince tr p id x) ∧
    (∀ ids : Finset Nat, (∀ id ∈ ids, ∃ x, p.proposals id = some x ∧ x.executed = false ∧
        x.invalidated = false ∧ x.action.setsSigners = true) →
      ∀ later t, Run Step p later t → executions ids later ≤ 1) := by
  have hc := Run.committee h h0
  refine ⟨?_, ?_, ?_⟩
  · intro id x hx hexecuted hinvalidated hset
    exact hc.current id x hx ⟨hexecuted, hinvalidated⟩ hset
  · intro env id p' x new hstep hx haction
    have hset : x.action.setsSigners = true := by
      rw [haction]
      rfl
    obtain ⟨proposal, config, q, rfl, hproposal, hchecked, hacts, rfl⟩ :=
      Step.executes hc.sound hstep rfl
    rw [hproposal, Option.some.injEq] at hx
    subst hx
    refine ⟨?_, (hc.current _ _ hproposal hchecked.opened hset).2⟩
    obtain ⟨new', haction', rfl⟩ := hacts.setsSigners hset
    rw [haction] at haction'
    cases haction'
    rfl
  · intro ids hopen later t hlater
    refine Run.signer_executions_le_one hlater hc.sound ?_
    intro id hid
    obtain ⟨x, hx, -, -, hset⟩ := hopen id hid
    exact ⟨x, hx, hset⟩

/-- `21` and `22` each propose to drop another signer; one of them at most succeeds. -/
theorem signer_changes_are_current_sample : ∃ (p : Storage) (x : Proposal),
    p.proposals 0 = some x ∧ x.snapshot = [21, 22, 23] ∧
    ∀ later t, Run Step p later t → executions {0, 1} later ≤ 1 := by
  have hrun : (replay take Storage.empty (sampleLabels.take 3 ++ [
      ⟨Env.signedBy [21] 80, .propose 21 (.updateSigners ⟨[21, 22], 2, by decide⟩)⟩,
      ⟨Env.signedBy [22] 90, .propose 22 (.updateSigners ⟨[22, 23], 2, by decide⟩)⟩])).toOption.map
      (fun r => (r.2.multisig,
        (r.2.proposals 0).map fun x => (x.executed, x.invalidated, x.action.setsSigners),
        (r.2.proposals 1).map fun x => (x.executed, x.invalidated, x.action.setsSigners)))
        = some (some sampleConfig, some (false, false, true), some (false, false, true)) := by
    decide +kernel
  obtain ⟨tr, p, hr, hs⟩ := replay_observed hrun
  simp only [Prod.mk.injEq, Option.map_eq_some_iff] at hs
  obtain ⟨hconfig, ⟨x, hx, hexecuted, hinvalidated, hset⟩, y, hy, hexecuted', hinvalidated',
    hset'⟩ := hs
  obtain ⟨hcurrent, -, honce⟩ :=
    signer_changes_are_current (Run.of_replay (fun _ _ _ _ h => h) hr) rfl
  obtain ⟨⟨config, hmultisig, hsnapshot⟩, -⟩ := hcurrent 0 x hx hexecuted hinvalidated hset
  rw [hconfig, Option.some.injEq] at hmultisig
  subst hmultisig
  refine ⟨p, x, hx, hsnapshot, honce {0, 1} ?_⟩
  intro id hid
  rcases Finset.mem_insert.mp hid with rfl | hid
  · exact ⟨x, hx, hexecuted, hinvalidated, hset⟩
  · obtain rfl := Finset.mem_singleton.mp hid
    exact ⟨y, hy, hexecuted', hinvalidated', hset'⟩

end StepFi.Parameters

import StepFi.Parameters.Validity
import Mathlib.Data.Finset.Card

/-!
# Governance by quorum

`Revision` says what a step can do to a stored proposal. Every approval that one
stores was cast in the run, by a call its signer authorised (`Ballots`). So an
execution has a quorum of distinct signers behind it, and after set-up nothing
else changes the parameters, the administrator or the signers.
-/

namespace StepFi.Parameters

open Lib

variable {env : Env} {call : Call} {p p' : Storage} {l : Label} {tr : List (Storage × Label)}
variable {id : Nat} {a : Address} {x y : Proposal}

/-! ## What a step does to a proposal -/

/-- What a call can do to the stored proposal `id`. -/
inductive Revision (p : Storage) (env : Env) (id : Nat) (x : Proposal) : Call → Proposal → Prop
  | keep (call : Call) : call ≠ .execute id → Revision p env id x call x
  | approve (signer : Address) : env.auths signer = true → x.Open → signer ∉ x.approvals →
      signer ∈ x.snapshot → Revision p env id x (.approve signer id)
        { x with approvals := x.approvals ++ [signer] }
  | execute (config : MultisigConfig) : Executable p env x config →
      Revision p env id x (.execute id) { x with executed := true }
  | void (executing : Nat) : executing ≠ id → x.Open →
      Revision p env id x (.execute executing) { x with invalidated := true }

/-- No call removes a proposal, and each leaves it as `Revision` says. -/
theorem Change.revision (hs : p.Sound) (h : Change p env call p')
    (hx : p.proposals id = some x) :
    ∃ y, p'.proposals id = some y ∧ Revision p env id x call y := by
  obtain rfl := hs.keyed id x hx
  cases h with
  | setUp admin params hcall =>
    refine ⟨x, hx, .keep _ ?_⟩
    rintro rfl
    rcases hcall with hcall | ⟨hcall, -⟩ <;> cases hcall
  | configure => exact ⟨x, hx, .keep _ (by simp)⟩
  | confirm => exact ⟨x, hx, .keep _ (by simp)⟩
  | propose proposer action config =>
    refine ⟨x, ?_, .keep _ (by simp)⟩
    have hne : x.id ≠ p.proposalCount := Nat.ne_of_lt (hs.numbered x.id x hx)
    rw [addActiveProposal_proposals, setProposal_proposals]
    exact (Function.update_of_ne hne ..).trans hx
  | approve signer proposal config hauth hconfig hsigner hproposal hopen hexpires hnew hsnapshot =>
    by_cases hid : x.id = proposal.id
    · rw [hid, hproposal, Option.some.injEq] at hx
      subst hx
      exact ⟨_, Function.update_self .., .approve signer hauth hopen hnew hsnapshot⟩
    · exact ⟨x, (Function.update_of_ne hid ..).trans hx, .keep _ (by simp)⟩
  | execute proposal config q hproposal hchecked hacts =>
    by_cases hid : x.id = proposal.id
    · rw [hid, hproposal, Option.some.injEq] at hx
      subst hx
      exact ⟨_, Function.update_self .., .execute config hchecked⟩
    · have hcall : Call.execute proposal.id ≠ .execute x.id := by
        intro heq
        exact hid (Call.execute.inj heq).symm
      have hq : ∀ y, q.proposals x.id = some y →
          (setProposal { proposal with executed := true } q).proposals x.id = some y := by
        intro y hy
        exact (Function.update_of_ne hid ..).trans hy
      cases hacts with
      | updateSigners new haction hvalid =>
        have hlisted := hs.listed x.id x hx
        have hswept : sweep proposal.id p.activeProposals p.proposals x.id = some x.voided := by
          rw [sweep, if_pos ⟨hlisted, hid⟩, hx, Option.map_some]
        refine ⟨x.voided, hq _ hswept, ?_⟩
        unfold Proposal.voided
        split
        · rename_i hopen
          exact .void proposal.id (Ne.symm hid) ⟨hopen.1, hopen.2.1⟩
        · exact .keep _ hcall
      | _ => exact ⟨x, hq x hx, .keep _ hcall⟩

/-- A proposal that is new was proposed just now. -/
theorem Change.proposed (h : Change p env call p')
    (hnone : p.proposals id = none) (hy : p'.proposals id = some y) :
    ∃ proposer action config, call = .propose proposer action ∧ id = p.proposalCount ∧
      env.auths proposer = true ∧ p.multisig = some config ∧ proposer ∈ config.signers ∧
      p'.multisig = p.multisig ∧ y = Parameters.proposed p env proposer action config := by
  have hnew : p.proposals id ≠ some y := by simp [hnone]
  cases h with
  | propose proposer action config hauth hconfig hsigner hvalid =>
    rcases setProposal_cases hy with ⟨hid, rfl⟩ | ⟨-, hold⟩
    · exact ⟨proposer, action, config, rfl, hid, hauth, hconfig, hsigner, rfl, rfl⟩
    · exact absurd hold hnew
  | approve signer proposal config hauth hconfig hsigner hproposal =>
    rcases setProposal_cases hy with ⟨rfl, -⟩ | ⟨-, hold⟩
    · rw [hproposal] at hnone
      cases hnone
    · exact absurd hold hnew
  | execute proposal config q hproposal hchecked hacts =>
    rcases setProposal_cases hy with ⟨rfl, -⟩ | ⟨-, hold⟩
    · rw [hproposal] at hnone
      cases hnone
    · cases hacts with
      | updateSigners new haction hvalid =>
        obtain ⟨x, hx, -⟩ := sweep_some hold
        rw [hnone] at hx
        cases hx
      | _ => exact absurd hold hnew
  | _ => exact absurd hy hnew

/-! ## Votes -/

/-- In this step `a` authorised a `propose` or an `approve` call for proposal `id`,
and the proposal was for `action`. -/
structure Votes (step : Storage × Label) (id : Nat) (action : ProposalAction) (a : Address) :
    Prop where
  auth : step.2.env.auths a = true
  call : step.2.call = .propose a action ∧ step.1.proposalCount = id ∨
    step.2.call = .approve a id ∧ ∃ x, step.1.proposals id = some x ∧ x.action = action

/-- A stored proposal is an old one revised, or new. -/
theorem Change.origin (hs : p.Sound) (h : Change p env call p')
    (hy : p'.proposals id = some y) :
    (∃ x, p.proposals id = some x ∧ Revision p env id x call y) ∨
      ∃ proposer action config, call = .propose proposer action ∧ id = p.proposalCount ∧
        env.auths proposer = true ∧ p.multisig = some config ∧ proposer ∈ config.signers ∧
        p'.multisig = p.multisig ∧ y = Parameters.proposed p env proposer action config := by
  cases hx : p.proposals id with
  | none => exact .inr (h.proposed hx hy)
  | some x =>
    obtain ⟨z, hz, hrev⟩ := h.revision hs hx
    rw [hy, Option.some.injEq] at hz
    subst hz
    exact .inl ⟨x, rfl, hrev⟩

/-- A revision adds at most the caller's approval, and keeps action and snapshot. -/
theorem Revision.action (h : Revision p env id x call y) : y.action = x.action := by
  cases h <;> rfl

theorem Revision.snapshot (h : Revision p env id x call y) : y.snapshot = x.snapshot := by
  cases h <;> rfl

theorem Revision.approvals (h : Revision p env id x call y) :
    y.approvals = x.approvals ∨ ∃ signer, call = .approve signer id ∧
      env.auths signer = true ∧ signer ∉ x.approvals ∧ y.approvals = x.approvals ++ [signer] := by
  cases h with
  | approve signer hauth hopen hnew => exact .inr ⟨signer, rfl, hauth, hnew, rfl⟩
  | _ => exact .inl rfl

/-- The approvals stored were cast in the run, and by distinct signers. -/
structure Ballots (tr : List (Storage × Label)) (p : Storage) : Prop where
  sound : p.Sound
  cast : ∀ id x, p.proposals id = some x → ∀ a ∈ x.approvals, ∃ step ∈ tr, Votes step id x.action a
  distinct : ∀ id x, p.proposals id = some x → x.approvals.Nodup

theorem Ballots.empty : Ballots [] Storage.empty where
  sound := .empty
  cast := by
    intro id x hx
    cases hx
  distinct := by
    intro id x hx
    cases hx

theorem Ballots.step (hb : Ballots tr p) (h : Step p l p') : Ballots (tr ++ [(p, l)]) p' := by
  have hchange := Step.change hb.sound h
  refine ⟨Step.sound hb.sound h, ?_, ?_⟩
  · intro id y hy a ha
    rcases hchange.origin hb.sound hy with ⟨x, hx, hrev⟩ |
      ⟨proposer, action, config, hcall, hid, hauth, -, -, -, rfl⟩
    · have hold : a ∈ x.approvals →
          ∃ step ∈ tr ++ [(p, l)], Votes step id y.action a := by
        intro hmem
        obtain ⟨step, hstep, hvotes⟩ := hb.cast id x hx a hmem
        exact ⟨step, List.mem_append_left _ hstep, hrev.action ▸ hvotes⟩
      rcases hrev.approvals with hsame | ⟨signer, hcall, hauth, -, hadded⟩
      · exact hold (hsame ▸ ha)
      · rw [hadded] at ha
        rcases List.mem_append.mp ha with hmem | hlast
        · exact hold hmem
        · obtain rfl := List.mem_singleton.mp hlast
          exact ⟨(p, l), List.mem_append_right _ List.mem_cons_self, hauth,
            .inr ⟨hcall, x, hx, hrev.action.symm⟩⟩
    · obtain rfl := List.mem_singleton.mp ha
      exact ⟨(p, l), List.mem_append_right _ List.mem_cons_self, hauth, .inl ⟨hcall, hid.symm⟩⟩
  · intro id y hy
    rcases hchange.origin hb.sound hy with ⟨x, hx, hrev⟩ | ⟨proposer, action, config, -, -, -, -, -,
      -, rfl⟩
    · have hdistinct := hb.distinct id x hx
      rcases hrev.approvals with hsame | ⟨signer, -, -, hnew, hadded⟩
      · rwa [hsame]
      · rw [hadded, ← List.concat_eq_append, List.nodup_concat]
        exact ⟨hnew, hdistinct⟩
    · exact List.nodup_singleton proposer

theorem Run.ballots {p₀ : Storage} (h : Run Step p₀ tr p) (h0 : Deployed p₀) : Ballots tr p :=
  h.history (P := Ballots) (h0 ▸ .empty) fun _ _ _ _ hb hstep => hb.step hstep

/-! ## Executions -/

def Call.executes (ids : Finset Nat) : Call → Bool
  | .execute id => decide (id ∈ ids)
  | _ => false

/-- How many executions of these proposals a run has. -/
def executions (ids : Finset Nat) (tr : List (Storage × Label)) : Nat :=
  tr.countP fun x => x.2.call.executes ids

theorem Call.executes_iff {ids : Finset Nat} :
    call.executes ids = true ↔ ∃ id ∈ ids, call = .execute id := by
  cases call with
  | execute id => simp [Call.executes]
  | _ => simp [Call.executes]

/-- What an execution has checked, and that it marks the proposal. -/
theorem Step.executed (hs : p.Sound) (h : Step p l p') (hcall : l.call = .execute id) :
    ∃ x config, p.proposals id = some x ∧ Executable p l.env x config ∧
      p'.proposals id = some { x with executed := true } := by
  obtain ⟨x, config, q, rfl, hx, hchecked, -, rfl⟩ := Step.executes hs h hcall
  exact ⟨x, config, hx, hchecked, Function.update_self ..⟩

/-- A closed proposal stays closed. -/
theorem Revision.closed (h : Revision p env id x call y) (hx : ¬x.Open) : ¬y.Open := by
  cases h with
  | keep => exact hx
  | approve signer hauth hopen => exact absurd hopen hx
  | execute config hchecked => exact absurd hchecked.opened hx
  | void executing hne hopen => exact absurd hopen hx

/-- The proposal is stored, and no longer open. -/
def Closed (id : Nat) (p : Storage) : Prop := ∃ x, p.proposals id = some x ∧ ¬x.Open

theorem Step.closed (hs : p.Sound) (h : Step p l p') (hclosed : Closed id p) :
    Closed id p' ∧ l.call ≠ .execute id := by
  obtain ⟨x, hx, hnot⟩ := hclosed
  obtain ⟨y, hy, hrev⟩ := (Step.change hs h).revision hs hx
  refine ⟨⟨y, hy, hrev.closed hnot⟩, ?_⟩
  intro hcall
  obtain ⟨z, config, hz, hchecked, -⟩ := Step.executed hs h hcall
  rw [hx, Option.some.injEq] at hz
  subst hz
  exact hnot hchecked.opened

/-- No proposal is executed twice, from any moment on. -/
theorem Run.executions_le_one (h : Run Step p tr p') (hs : p.Sound) (id : Nat) :
    executions {id} tr ≤ 1 := by
  refine h.countP_le_one (P := Storage.Sound) (E := fun l => l.call.executes {id})
    (Q := Closed id) hs (fun _ _ _ hs hstep => Step.sound hs hstep) ?_ ?_
  · intro q l q' hs hstep hcall
    obtain ⟨_, hid, hexecute⟩ := Call.executes_iff.mp hcall
    obtain rfl := Finset.mem_singleton.mp hid
    obtain ⟨x, config, -, -, hdone⟩ := Step.executed hs hstep hexecute
    exact ⟨_, hdone, fun hopen => nomatch hopen.executed⟩
  · intro q l q' hs hstep hspent
    obtain ⟨hclosed, hne⟩ := Step.closed hs hstep hspent
    refine ⟨hclosed, ?_⟩
    rw [Bool.eq_false_iff, Ne, Call.executes_iff]
    rintro ⟨_, hid, hcall⟩
    obtain rfl := Finset.mem_singleton.mp hid
    exact hne hcall

/-- After set-up only an execution changes the parameters, the administrator or the
signers. -/
theorem Step.governed (hs : p.Sound) (hadmin : p.admin.isSome = true)
    (hmultisig : p.multisig.isSome = true) (h : Step p l p') :
    p'.params = p.params ∧ p'.admin = p.admin ∧ p'.multisig = p.multisig ∨
      ∃ id, l.call = .execute id := by
  have hchange := Step.change hs h
  generalize l.call = call at hchange
  cases hchange with
  | setUp admin params hcall hnone =>
    rw [hnone] at hadmin
    cases hadmin
  | configure => exact .inl ⟨rfl, rfl, rfl⟩
  | confirm admin config _ _ hnone =>
    rw [hnone] at hmultisig
    cases hmultisig
  | propose => exact .inl ⟨rfl, rfl, rfl⟩
  | approve => exact .inl ⟨rfl, rfl, rfl⟩
  | execute proposal => exact .inr ⟨proposal.id, rfl⟩

/-- Over any run: a proposal is executed only while it is open and unexpired, with
at least the quorum of the current config behind it, each a distinct signer then
and now who authorised a call for this very proposal; it is executed at most
once; and once the contract is set up, the parameters, the administrator and the
signers change only by executions. -/
theorem execute_needs_quorum {p₀ : Storage} (h : Run Step p₀ tr p) (h0 : Deployed p₀) :
    (∀ env id p', Step p ⟨env, .execute id⟩ p' → ∃ proposal config,
      p.proposals id = some proposal ∧ p.multisig = some config ∧
      proposal.executed = false ∧ proposal.invalidated = false ∧
      env.timestamp ≤ proposal.expiresAt ∧
      ∃ voters : Finset Address,
        (match proposal.action with
          | .updateSigners _ => min (config.threshold + 1) config.signers.length
          | _ => config.threshold) ≤ voters.card ∧
        ∀ a ∈ voters, a ∈ proposal.snapshot ∧ a ∈ config.signers ∧
          ∃ step ∈ tr, Votes step id proposal.action a) ∧
    (∀ id, executions {id} tr ≤ 1) ∧
    (p.admin.isSome = true → p.multisig.isSome = true → ∀ l p', Step p l p' →
      p'.params = p.params ∧ p'.admin = p.admin ∧ p'.multisig = p.multisig ∨
        ∃ id, l.call = .execute id) := by
  have hb := Run.ballots h h0
  refine ⟨?_, ?_, ?_⟩
  · intro env id p' hstep
    obtain ⟨proposal, config, hproposal, hchecked, -⟩ := Step.executed hb.sound hstep rfl
    refine ⟨proposal, config, hproposal, hchecked.multisig, hchecked.opened.executed,
      hchecked.opened.invalidated, hchecked.unexpired, proposal.approvals.toFinset, ?_, ?_⟩
    · have hquorum := hchecked.quorum
      rw [List.toFinset_card_of_nodup (hb.distinct id proposal hproposal)]
      split
      · rename_i new haction
        rwa [haction, requiredQuorum_updateSigners] at hquorum
      · rename_i hother
        have hthreshold : requiredQuorum config proposal.action = config.threshold := by
          cases haction : proposal.action with
          | updateSigners new => exact absurd haction (hother new)
          | _ => rfl
        rwa [hthreshold] at hquorum
    · intro a ha
      have hmem := List.mem_toFinset.mp ha
      obtain ⟨hsnapshot, hsigner⟩ := hchecked.eligible a hmem
      exact ⟨hsnapshot, hsigner, hb.cast id proposal hproposal a hmem⟩
  · intro id
    exact Run.executions_le_one h (h0 ▸ .empty) id
  · intro hadmin hmultisig l p' hstep
    exact hstep.governed hb.sound hadmin hmultisig

theorem execute_needs_quorum_sample : ∃ (tr : List (Storage × Label)) (voters : Finset Address),
    2 ≤ voters.card ∧ (∀ a ∈ voters, a ∈ [21, 22, 23]) ∧
    ∀ a ∈ voters, ∃ step ∈ tr, Votes step 0 (.setLateFeeBps 300) a := by
  have hrun : (replay take Storage.empty sampleLabels).toOption.map
      (fun r => ((take r.2 ⟨Env.signedBy [] 100, .execute 0⟩).toOption.map
        fun q => q.params.map (·.lateFeeBps), r.2.multisig, (r.2.proposals 0).map (·.action)))
        = some (some (some 300), some sampleConfig, some (.setLateFeeBps 300)) := by
    decide +kernel
  obtain ⟨tr, p, hr, hs⟩ := replay_observed hrun
  simp only [Prod.mk.injEq] at hs
  obtain ⟨hexecutes, hmultisig, haction⟩ := hs
  obtain ⟨p', hstep, -⟩ := toOption_map_some.mp hexecutes
  obtain ⟨proposal, config, hproposal, hconfig, -, -, -, voters, hquorum, hvoters⟩ :=
    (execute_needs_quorum (Run.of_replay (fun _ _ _ _ h => h) hr) rfl).1 _ 0 p' hstep
  rw [hproposal, Option.map_some, Option.some.injEq] at haction
  rw [hmultisig, Option.some.injEq] at hconfig
  subst hconfig
  rw [haction] at hquorum hvoters
  refine ⟨tr, voters, hquorum, ?_, ?_⟩
  · intro a ha
    exact (hvoters a ha).2.1
  · intro a ha
    exact (hvoters a ha).2.2

end StepFi.Parameters

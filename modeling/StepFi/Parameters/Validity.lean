import StepFi.Parameters.Spec

/-!
# Stored configs and parameters are valid

`Storage.Sound` is what every call keeps: proposals are numbered and listed, and
every stored config and parameter set is valid, so that governance can always
reach its quorum.
-/

namespace StepFi.Parameters

open Lib

variable {env : Env} {call : Call} {p p' q : Storage} {l : Label} {tr : List (Storage × Label)}
variable {id : Nat} {params : ProtocolParameters} {proposal x y : Proposal}

/-! ## The storage of every run -/

structure Storage.Sound (p : Storage) : Prop where
  keyed : p.Keyed
  unlocked : p.reentrancyLocked = false
  numbered : ∀ id x, p.proposals id = some x → id < p.proposalCount
  listed : ∀ id x, p.proposals id = some x → id ∈ p.activeProposals
  multisig : ∀ config, p.multisig = some config → config.Valid
  pending : ∀ config, p.pendingMultisig = some config → config.Valid
  params : ∀ params, p.params = some params → params.Valid
  setUp : p.admin.isSome = true → p.params.isSome = true

theorem Storage.Sound.empty : Storage.empty.Sound where
  keyed := by
    intro id x hx
    cases hx
  unlocked := rfl
  numbered := by
    intro id x hx
    cases hx
  listed := by
    intro id x hx
    cases hx
  multisig := by
    intro config hconfig
    cases hconfig
  pending := by
    intro config hconfig
    cases hconfig
  params := by
    intro params hparams
    cases hparams
  setUp := by
    intro h
    cases h

/-- A swept proposal is an old one, as it was or voided. -/
theorem sweep_some {executing : Nat} {ids : List Nat} {f : Nat → Option Proposal}
    (h : sweep executing ids f id = some y) : ∃ x, f id = some x ∧ (y = x ∨ y = x.voided) := by
  unfold sweep at h
  split at h
  · obtain ⟨x, hx, rfl⟩ := Option.map_eq_some_iff.mp h
    exact ⟨x, hx, .inr rfl⟩
  · exact ⟨y, h, .inl rfl⟩

/-- The proposal being executed is not swept. -/
theorem sweep_executing (ids : List Nat) (f : Nat → Option Proposal) (executing : Nat) :
    sweep executing ids f executing = f executing := by
  simp [sweep]

theorem Acts.executing (h : Acts p proposal q) :
    q.proposals proposal.id = p.proposals proposal.id := by
  cases h with
  | updateSigners config haction hvalid => exact sweep_executing _ _ _
  | _ => rfl

theorem Acts.sound (hs : p.Sound) (h : Acts p proposal q) : q.Sound := by
  cases h with
  | updateParameters admin params haction hadmin hvalid =>
    exact { hs with
      params := fun _ hparams => Option.some.inj hparams ▸ hvalid
      setUp := fun _ => rfl }
  | setAdmin admin newAdmin haction hadmin =>
    exact { hs with setUp := fun _ => hs.setUp (Option.isSome_of_eq_some hadmin) }
  | upgrade newWasmHash haction => exact { hs with }
  | updateSigners config haction hvalid =>
    have hold : ∀ id y, sweep proposal.id p.activeProposals p.proposals id = some y →
        ∃ x, p.proposals id = some x ∧ y.id = x.id := by
      intro id y hy
      obtain ⟨x, hx, rfl | rfl⟩ := sweep_some hy
      · exact ⟨_, hx, rfl⟩
      · exact ⟨x, hx, voided_id x⟩
    refine { hs with multisig := ?_, keyed := ?_, numbered := ?_, listed := ?_ }
    · intro id y hy
      obtain ⟨x, hx, hid⟩ := hold id y hy
      exact hid.trans (hs.keyed id x hx)
    · intro id y hy
      obtain ⟨x, hx, -⟩ := hold id y hy
      exact hs.numbered id x hx
    · intro id y hy
      obtain ⟨x, hx, -⟩ := hold id y hy
      exact hs.listed id x hx
    · intro _ hconfig
      exact Option.some.inj hconfig ▸ hvalid
  | setLateFeeBps admin bps params haction hadmin hparams =>
    have hvalid := hs.params params hparams
    exact { hs with
      params := fun _ hnew => Option.some.inj hnew ▸
        ⟨hvalid.guarantee_pos, hvalid.guarantee_le, hvalid.threshold_pos⟩
      setUp := fun _ => rfl }

/-- A stored proposal rewritten. -/
theorem Storage.Sound.revise (hs : p.Sound) (hold : p.proposals y.id = some x) :
    (setProposal y p).Sound := by
  refine { hs with keyed := ?_, numbered := ?_, listed := ?_ }
  · intro id z hz
    rcases setProposal_cases hz with ⟨rfl, rfl⟩ | ⟨-, hz⟩
    · rfl
    · exact hs.keyed id z hz
  · intro id z hz
    rcases setProposal_cases hz with ⟨rfl, -⟩ | ⟨-, hz⟩
    · exact hs.numbered _ x hold
    · exact hs.numbered id z hz
  · intro id z hz
    rcases setProposal_cases hz with ⟨rfl, -⟩ | ⟨-, hz⟩
    · exact hs.listed _ x hold
    · exact hs.listed id z hz

/-- A proposal with the next number. -/
theorem Storage.Sound.push (hs : p.Sound) (hid : y.id = p.proposalCount) :
    (addActiveProposal p.proposalCount
      (setProposal y { p with proposalCount := p.proposalCount + 1 })).Sound := by
  refine { hs with keyed := ?_, numbered := ?_, listed := ?_ }
  · intro id z hz
    rcases setProposal_cases hz with ⟨rfl, rfl⟩ | ⟨-, hz⟩
    · rfl
    · exact hs.keyed id z hz
  · intro id z hz
    show id < p.proposalCount + 1
    rcases setProposal_cases hz with ⟨rfl, -⟩ | ⟨-, hz⟩
    · omega
    · exact Nat.lt_succ_of_lt (hs.numbered id z hz)
  · intro id z hz
    show id ∈ p.activeProposals ++ [p.proposalCount]
    rcases setProposal_cases hz with ⟨rfl, -⟩ | ⟨-, hz⟩
    · rw [hid]
      exact List.mem_append_right _ List.mem_cons_self
    · exact List.mem_append_left _ (hs.listed id z hz)

theorem Change.sound (hs : p.Sound) (h : Change p env call p') : p'.Sound := by
  cases h with
  | setUp admin params hcall hnone hvalid hauth =>
    exact { hs with
      params := fun _ hparams => Option.some.inj hparams ▸ hvalid
      setUp := fun _ => rfl }
  | configure admin config hadmin hauth hnone hpending hvalid =>
    exact { hs with pending := fun _ hconfig => Option.some.inj hconfig ▸ hvalid }
  | confirm admin config hadmin hauth hnone hpending =>
    have hvalid := hs.pending config hpending
    exact { hs with
      multisig := fun _ hconfig => Option.some.inj hconfig ▸ hvalid
      pending := fun _ hconfig => nomatch hconfig }
  | propose proposer action config hauth hconfig hsigner hvalid => exact hs.push rfl
  | approve signer proposal config hauth hconfig hsigner hproposal =>
    exact hs.revise hproposal
  | execute proposal config q hproposal hchecked hacts =>
    exact (hacts.sound hs).revise (hacts.executing.trans hproposal)

theorem Step.change (hs : p.Sound) (h : Step p l p') : Change p l.env l.call p' :=
  exec_change hs.keyed hs.unlocked h

/-- An execution, and what it found. -/
theorem Step.executes (hs : p.Sound) (h : Step p l p') (hcall : l.call = .execute id) :
    ∃ x config q, id = x.id ∧ p.proposals x.id = some x ∧ Executable p l.env x config ∧
      Acts p x q ∧ p' = setProposal { x with executed := true } q := by
  have hchange := Step.change hs h
  rw [hcall] at hchange
  cases hchange with
  | setUp admin params hinit => rcases hinit with hinit | ⟨hinit, -⟩ <;> cases hinit
  | execute x config q hx hchecked hacts => exact ⟨x, config, q, rfl, hx, hchecked, hacts, rfl⟩

/-- A confirmation found no config in force. -/
theorem Step.confirms (hs : p.Sound) (h : Step p l p') (hcall : l.call = .confirmMultisig) :
    p.multisig = none := by
  have hchange := Step.change hs h
  rw [hcall] at hchange
  cases hchange with
  | setUp admin params hinit => rcases hinit with hinit | ⟨hinit, -⟩ <;> cases hinit
  | confirm admin config hadmin hauth hnone => exact hnone

theorem Step.sound (hs : p.Sound) (h : Step p l p') : p'.Sound :=
  (Step.change hs h).sound hs

theorem sound_of_reachable (h : Reachable Deployed Step p) : p.Sound :=
  h.invariant (fun _ h0 => h0 ▸ .empty) fun _ _ _ _ hs hstep => Step.sound hs hstep

/-! ## No dead end -/

/-- An executed `SetLateFeeBps` writes that field of the parameters of the moment. -/
theorem Step.setsLateFee {bps : Nat} (hs : p.Sound) (h : Step p l p') (hcall : l.call = .execute id)
    (hx : p.proposals id = some x) (haction : x.action = .setLateFeeBps bps) :
    ∃ params, p.params = some params ∧ p' = { p with
      params := some { params with lateFeeBps := bps }
      proposals := Function.update p.proposals id (some { x with executed := true }) } := by
  obtain ⟨found, config, q, rfl, hfound, -, hacts, rfl⟩ := Step.executes hs h hcall
  rw [hfound, Option.some.injEq] at hx
  subst hx
  cases hacts with
  | setLateFeeBps admin bps' params haction' hadmin hparams =>
    rw [haction] at haction'
    cases haction'
    exact ⟨params, hparams, rfl⟩
  | updateParameters admin params haction' => simp [haction] at haction'
  | setAdmin admin newAdmin haction' => simp [haction] at haction'
  | upgrade newWasmHash haction' => simp [haction] at haction'
  | updateSigners new haction' => simp [haction] at haction'

/-- In every state reached, whatever was executed in whatever order: a config in
force or pending is valid and its signers can reach every quorum; from
initialisation on valid parameters are stored; and an executed `SetLateFeeBps`
writes `lateFeeBps` of the parameters stored then, and nothing else. -/
theorem governance_stays_valid (h : Reachable Deployed Step p) :
    (∀ config, p.multisig = some config ∨ p.pendingMultisig = some config →
      2 ≤ config.threshold ∧ config.threshold ≤ config.signers.length ∧ config.signers.Nodup ∧
      ∀ action, requiredQuorum config action ≤ config.signers.length) ∧
    (p.admin.isSome = true → ∃ params, p.params = some params) ∧
    (∀ params, p.params = some params → 1 ≤ params.minGuaranteePercent ∧
      params.minGuaranteePercent ≤ 100 ∧ 0 < params.largeLoanThreshold) ∧
    ∀ env id p' x bps, Step p ⟨env, .execute id⟩ p' → p.proposals id = some x →
      x.action = .setLateFeeBps bps → ∃ params, p.params = some params ∧ p' = { p with
        params := some { params with lateFeeBps := bps }
        proposals := Function.update p.proposals id (some { x with executed := true }) } := by
  have hs := sound_of_reachable h
  refine ⟨?_, ?_, ?_, ?_⟩
  · intro config hconfig
    have hvalid : config.Valid := by
      rcases hconfig with hconfig | hconfig
      · exact hs.multisig config hconfig
      · exact hs.pending config hconfig
    exact ⟨hvalid.two_le, hvalid.threshold_le, hvalid.distinct, requiredQuorum_le hvalid⟩
  · intro hadmin
    exact Option.isSome_iff_exists.mp (hs.setUp hadmin)
  · intro params hparams
    have hvalid := hs.params params hparams
    exact ⟨hvalid.guarantee_pos, hvalid.guarantee_le, hvalid.threshold_pos⟩
  · intro env id p' x bps hstep hx haction
    exact Step.setsLateFee hs hstep rfl hx haction

/-- Signers `21`, `22` and `23`, of whom two decide. -/
def sampleConfig : MultisigConfig := ⟨[21, 22, 23], 2, by decide⟩

/-- Administrator `10` sets up; `21` proposes a late fee of `300` bps and `22`
approves it. -/
def sampleLabels : List Label :=
  [⟨Env.signedBy [10] 50, .initializeDefaults 10⟩,
    ⟨Env.signedBy [10] 60, .configureMultisig sampleConfig⟩,
    ⟨Env.signedBy [10] 70, .confirmMultisig⟩,
    ⟨Env.signedBy [21] 80, .propose 21 (.setLateFeeBps 300)⟩,
    ⟨Env.signedBy [22] 90, .approve 22 0⟩]

theorem governance_stays_valid_sample : ∃ (p : Storage) (params : ProtocolParameters),
    p.params = some params ∧ params.lateFeeBps = 300 ∧ 1 ≤ params.minGuaranteePercent ∧
    p.multisig = some sampleConfig ∧ ∀ action, requiredQuorum sampleConfig action ≤ 3 := by
  have hrun : (replay take Storage.empty
      (sampleLabels ++ [⟨Env.signedBy [] 100, .execute 0⟩])).toOption.map
      (fun r => (r.2.params, r.2.multisig))
        = some (some { defaultParameters with lateFeeBps := 300 }, some sampleConfig) := by
    decide +kernel
  obtain ⟨_, p, hreach, hs⟩ :=
    Reachable.of_replay (I := Deployed) (R := Step) hrun rfl fun _ _ _ h => h
  obtain ⟨hparams, hconfig⟩ := Prod.mk.injEq .. ▸ hs
  obtain ⟨hmultisig, -, hvalid, -⟩ := governance_stays_valid hreach
  exact ⟨p, _, hparams, rfl, (hvalid _ hparams).1, hconfig,
    (hmultisig sampleConfig (.inl hconfig)).2.2.2⟩

end StepFi.Parameters

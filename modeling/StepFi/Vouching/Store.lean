import StepFi.Vouching.Spec
import StepFi.Lib.Transition

/-!
# The vouching store over runs

The contract from its deployment on, called by anyone at any ledger time, beside
a reputation contract that changes and answers as it likes. The four pieces of
the store never drift apart (`sound_of_reachable`), so a removal always finds
its baseline and never takes more than the total holds.
-/

namespace StepFi.Vouching

open Lib

variable {W : Type} {c : Clients W} {env : Env} {s s' : State W} {p p' : Storage}
variable {mentor learner : Address} {record : VouchRecord}

/-- The records of a learner, by mentor. -/
def Storage.column (p : Storage) (learner : Address) : Address → Option VouchRecord :=
  fun mentor => p.vouches mentor learner

/-- The records of a learner whose boost counts. -/
def activeVouches (p : Storage) (learner : Address) : List VouchRecord :=
  ((p.learnerVouches learner).filterMap (p.column learner)).filter (·.active)

def activeBoost (p : Storage) (learner : Address) : Nat :=
  ((activeVouches p learner).map (·.boostAmount)).sum

def VouchRecord.contribution (record : VouchRecord) : Nat :=
  if record.active then record.boostAmount else 0

theorem contribution_of_active (h : record.active = true) :
    record.contribution = record.boostAmount := if_pos h

theorem contribution_of_inactive (h : record.active = false) : record.contribution = 0 := by
  simp [VouchRecord.contribution, h]

theorem activeBoost_eq :
    activeBoost p learner =
      weighed (p.learnerVouches learner) (p.column learner) VouchRecord.contribution :=
  sum_filterMap_filter _

theorem setVouch_column_self (record : VouchRecord) (p : Storage) :
    (setVouch record p).column record.learner =
      Function.update (p.column record.learner) record.mentor (some record) := by
  funext mentor
  by_cases hm : mentor = record.mentor
  · subst hm
    simp [setVouch, Storage.column]
  · simp [setVouch, Storage.column, hm]

theorem setVouch_column_of_ne (record : VouchRecord) (p : Storage)
    (hl : learner ≠ record.learner) :
    (setVouch record p).column learner = p.column learner := by
  funext mentor
  by_cases hm : mentor = record.mentor
  · subst hm
    simp [setVouch, Storage.column, hl]
  · simp [setVouch, Storage.column, hm]

/-- What the pieces of the store promise each other about a learner. -/
structure Storage.Agrees (p : Storage) (learner : Address) : Prop where
  listed : Listed (p.learnerVouches learner) (p.column learner)
  total : p.learnerTotalBoost learner = activeBoost p learner
  baseline : (p.learnerBaseline learner).isSome = true ↔ 0 < p.learnerTotalBoost learner

structure Storage.Sound (p : Storage) : Prop where
  agrees : ∀ learner, p.Agrees learner
  keyed : ∀ mentor learner record, p.vouches mentor learner = some record →
    record.mentor = mentor ∧ record.learner = learner ∧ 0 < record.boostAmount
  boost : ∀ boost, p.vouchBoost = some boost → 0 < boost
  unlocked : p.reentrancyLocked = false

theorem Storage.Sound.empty : Storage.empty.Sound where
  agrees := fun _ => ⟨Listed.empty, rfl, by simp [Storage.empty]⟩
  keyed := fun _ _ _ h => by simp [Storage.empty] at h
  boost := fun _ h => by simp [Storage.empty] at h
  unlocked := rfl

theorem Storage.Agrees.of_same (h : p.Agrees learner) (hcol : p'.column learner = p.column learner)
    (hindex : p'.learnerVouches learner = p.learnerVouches learner)
    (htotal : p'.learnerTotalBoost learner = p.learnerTotalBoost learner)
    (hbase : p'.learnerBaseline learner = p.learnerBaseline learner) : p'.Agrees learner where
  listed := by
    rw [hcol, hindex]
    exact h.listed
  total := by
    rw [htotal, h.total, activeBoost_eq, activeBoost_eq, hcol, hindex]
  baseline := by
    rw [htotal, hbase]
    exact h.baseline

/-- An active record is part of the total. -/
theorem Storage.Agrees.boost_le (h : p.Agrees learner)
    (hfound : p.vouches mentor learner = some record) (hactive : record.active = true) :
    record.boostAmount ≤ p.learnerTotalBoost learner := by
  have hle := h.listed.le_weighed (w := VouchRecord.contribution) hfound
  rw [h.total, activeBoost_eq]
  rwa [← contribution_of_active hactive]

/-- A learner with an active record has a baseline. -/
theorem Storage.Sound.baseline_of_active (hs : p.Sound)
    (hfound : p.vouches mentor learner = some record) (hactive : record.active = true) :
    ∃ baseline, p.learnerBaseline learner = some baseline := by
  have hle := (hs.agrees learner).boost_le hfound hactive
  obtain ⟨-, -, hpos⟩ := hs.keyed mentor learner record hfound
  exact Option.isSome_iff_exists.mp ((hs.agrees learner).baseline.mpr (by omega))

/-! ## A vouch -/

section Lent

variable {baseline : Option Nat}

@[simp] theorem lent_column_self :
    (p.lent record baseline).column record.learner =
      Function.update (p.column record.learner) record.mentor (some record) :=
  setVouch_column_self record p

@[simp] theorem lent_index_self :
    (p.lent record baseline).learnerVouches record.learner =
      enroll record.mentor (p.learnerVouches record.learner) := by simp [Storage.lent]

@[simp] theorem lent_total_self :
    (p.lent record baseline).learnerTotalBoost record.learner =
      p.learnerTotalBoost record.learner + record.boostAmount := by simp [Storage.lent]

@[simp] theorem lent_baseline_self :
    (p.lent record baseline).learnerBaseline record.learner = baseline := by simp [Storage.lent]

theorem Storage.Agrees.lent_of_ne (h : p.Agrees learner) (hl : learner ≠ record.learner) :
    (p.lent record baseline).Agrees learner :=
  h.of_same (setVouch_column_of_ne record p hl) (Function.update_of_ne hl ..)
    (Function.update_of_ne hl ..) (Function.update_of_ne hl ..)

theorem Storage.Agrees.lent (h : p.Agrees record.learner)
    (hinactive : ∀ old, p.vouches record.mentor record.learner = some old → old.active = false)
    (hactive : record.active = true) (hpos : 0 < record.boostAmount)
    (hbase : baseline.isSome = true) : (p.lent record baseline).Agrees record.learner where
  listed := by
    rw [lent_column_self, lent_index_self]
    exact h.listed.enter
  total := by
    have henter := weighed_enter h.listed (k := record.mentor) (b := record)
      (w := VouchRecord.contribution)
    have hold : (p.column record.learner record.mentor).elim 0 VouchRecord.contribution = 0 := by
      cases hv : p.column record.learner record.mentor with
      | none => rfl
      | some old => exact contribution_of_inactive (hinactive old hv)
    rw [lent_total_self, h.total, activeBoost_eq, activeBoost_eq, lent_column_self,
      lent_index_self, ← contribution_of_active hactive, ← henter, hold, Nat.add_zero]
  baseline := by
    rw [lent_baseline_self, lent_total_self, hbase]
    simp only [true_iff]
    omega

end Lent

/-! ## A removal -/

section Withdrawn

@[simp] theorem withdrawn_column_self :
    (p.withdrawn record.learner record).column record.learner =
      Function.update (p.column record.learner) record.mentor
        (some { record with active := false }) :=
  setVouch_column_self { record with active := false } p

@[simp] theorem withdrawn_total_self :
    (p.withdrawn learner record).learnerTotalBoost learner =
      p.learnerTotalBoost learner - record.boostAmount := by simp [Storage.withdrawn]

@[simp] theorem withdrawn_baseline_self :
    (p.withdrawn learner record).learnerBaseline learner =
      if p.learnerTotalBoost learner - record.boostAmount = 0 then none
      else p.learnerBaseline learner := by simp [Storage.withdrawn]

theorem Storage.Agrees.withdrawn_of_ne (h : p.Agrees learner) (hl : learner ≠ record.learner) :
    (p.withdrawn record.learner record).Agrees learner := by
  have hcol := setVouch_column_of_ne { record with active := false } p hl
  exact h.of_same hcol rfl (Function.update_of_ne hl ..) (Function.update_of_ne hl ..)

theorem Storage.Agrees.withdrawn (h : p.Agrees record.learner)
    (hfound : p.vouches record.mentor record.learner = some record)
    (hactive : record.active = true) :
    (p.withdrawn record.learner record).Agrees record.learner where
  listed := by
    rw [withdrawn_column_self]
    have henter := h.listed.enter (k := record.mentor) (b := { record with active := false })
    rwa [enroll_of_mem (h.listed.mem hfound)] at henter
  total := by
    have hcol : p.column record.learner record.mentor = some record := hfound
    have henter := weighed_update_of_mem h.listed.nodup (h.listed.mem hfound)
      (f := p.column record.learner) (b := { record with active := false })
      (w := VouchRecord.contribution)
    have hnew : VouchRecord.contribution { record with active := false } = 0 := rfl
    rw [hcol, Option.elim_some, contribution_of_active hactive, hnew] at henter
    rw [withdrawn_total_self, h.total, activeBoost_eq, activeBoost_eq, withdrawn_column_self]
    change weighed (p.learnerVouches record.learner) _ _ - _ =
      weighed (p.learnerVouches record.learner) _ _
    omega
  baseline := by
    have hbase := h.baseline
    have hle := h.boost_le hfound hactive
    rw [withdrawn_baseline_self, withdrawn_total_self]
    split
    · rename_i hzero
      simp [hzero]
    · rename_i hne
      rw [hbase]
      omega

end Withdrawn

/-! ## Every step -/

theorem setVouch_keyed (hs : p.Sound) (hpos : 0 < record.boostAmount) :
    ∀ mentor learner found, (setVouch record p).vouches mentor learner = some found →
      found.mentor = mentor ∧ found.learner = learner ∧ 0 < found.boostAmount := by
  intro mentor learner found hfound
  by_cases hm : mentor = record.mentor
  · by_cases hl : learner = record.learner
    · subst hm hl
      simp only [setVouch, Function.update_self, Option.some.injEq] at hfound
      subst hfound
      exact ⟨rfl, rfl, hpos⟩
    · subst hm
      simp only [setVouch, Function.update_self, Function.update_of_ne hl] at hfound
      exact hs.keyed _ _ _ hfound
  · simp only [setVouch, Function.update_of_ne hm] at hfound
    exact hs.keyed _ _ _ hfound

theorem Lends.sound {reputation boost : Nat} {baseline : Option Nat} (hs : s.vouching.Sound)
    (h : Lends c env mentor learner s s' reputation boost baseline) : s'.vouching.Sound := by
  have hpos : 0 < boost := hs.boost boost h.amount
  have hbase : baseline.isSome = true := by
    have hcap := h.captured
    unfold Captured at hcap
    split at hcap
    · obtain ⟨_, _, -, -, rfl⟩ := hcap
      rfl
    · rename_i hne
      rw [hcap]
      exact (hs.agrees learner).baseline.mpr (Nat.pos_of_ne_zero hne)
  rw [h.lent]
  constructor
  · intro other
    by_cases ho : other = learner
    · subst ho
      exact Storage.Agrees.lent (hs.agrees other) h.inactive rfl hpos hbase
    · exact (hs.agrees other).lent_of_ne ho
  · exact setVouch_keyed hs hpos
  · exact hs.boost
  · exact hs.unlocked

theorem Withdraws.sound {reputation current : Nat} (hs : s.vouching.Sound)
    (hfound : s.vouching.vouches mentor learner = some record) (hactive : record.active = true)
    (h : Withdraws c env learner record s s' reputation current) : s'.vouching.Sound := by
  obtain ⟨rfl, rfl, hpos⟩ := hs.keyed mentor learner record hfound
  rw [h.withdrawn]
  constructor
  · intro other
    by_cases ho : other = record.learner
    · subst ho
      exact (hs.agrees _).withdrawn hfound hactive
    · exact (hs.agrees other).withdrawn_of_ne ho
  · exact setVouch_keyed hs hpos
  · exact hs.boost
  · exact hs.unlocked

theorem Effect.sound {call : Call} (hs : s.vouching.Sound) (h : Effect c env s call s') :
    s'.vouching.Sound := by
  cases h with
  | initialized hadmin hboost =>
    refine ⟨fun learner => (hs.agrees learner).of_same rfl rfl rfl rfl, hs.keyed, ?_, hs.unlocked⟩
    intro boost hb
    obtain rfl := Option.some.inj hb
    exact hboost
  | mentorSet => exact ⟨fun _ => (hs.agrees _).of_same rfl rfl rfl rfl, hs.keyed, hs.boost, rfl⟩
  | upgraded => exact ⟨fun _ => (hs.agrees _).of_same rfl rfl rfl rfl, hs.keyed, hs.boost, rfl⟩
  | vouched h => exact h.sound hs
  | removed hcall hfound hactive h => exact h.sound hs hfound hactive
  | settled => exact hs

/-! ## Runs -/

/-- One event: a call, or a change of the world the contract has no part in. -/
inductive Label (W : Type) where
  | call (env : Env) (call : Call)
  | world (w : W)

def take (c : Clients W) (s : State W) : Label W → Except Failure (State W)
  | .call env call => exec c env call s
  | .world w => .ok { s with world := w }

def Step (c : Clients W) (s : State W) (l : Label W) (s' : State W) : Prop := take c s l = .ok s'

/-- The contract just deployed, with nothing stored. -/
def Deployed (s : State W) : Prop := s.vouching = Storage.empty

theorem Step.sound {l : Label W} (hs : s.vouching.Sound) (h : Step c s l s') :
    s'.vouching.Sound := by
  cases l with
  | call env call => exact (exec_effect h).sound hs
  | world w =>
    cases h
    exact hs

theorem sound_of_reachable (h : Reachable Deployed (Step c) s) : s.vouching.Sound :=
  h.invariant (fun _ h0 => h0 ▸ Storage.Sound.empty) (fun _ _ _ _ hs hstep => hstep.sound hs)

/-! ## The index and the record of the run -/

/-- Only a vouch writes an index. -/
theorem Effect.index {call : Call} (h : Effect c env s call s') :
    mentor ∈ s'.vouching.learnerVouches learner ↔
      mentor ∈ s.vouching.learnerVouches learner ∨ call = .vouch mentor learner := by
  cases h with
  | initialized => simp
  | mentorSet => simp
  | upgraded => simp
  | settled => simp
  | removed hcall hfound hactive h =>
    rw [h.withdrawn]
    rcases hcall with rfl | rfl
    · simp [Storage.withdrawn]
    · simp [Storage.withdrawn]
  | @vouched m l _ _ _ _ h =>
    rw [h.lent]
    by_cases hl : learner = l
    · subst hl
      simp only [Storage.lent, Function.update_self, mem_enroll, Call.vouch.injEq, and_true]
      rw [eq_comm (a := mentor)]
    · simp only [Storage.lent, Function.update_of_ne hl, Call.vouch.injEq]
      simp [Ne.symm hl]

theorem index_of_run {s₀ : State W} {tr : List (State W × Label W)} (h0 : Deployed s₀)
    (h : Run (Step c) s₀ tr s) :
    mentor ∈ s.vouching.learnerVouches learner ↔
      ∃ t env, (t, .call env (.vouch mentor learner)) ∈ tr := by
  induction h with
  | nil =>
    rw [h0]
    simp [Storage.empty]
  | @snoc tr t u l hr hs ih =>
    cases l with
    | world w =>
      cases hs
      rw [ih]
      simp
    | call env call =>
      rw [(exec_effect hs).index, ih]
      constructor
      · rintro (⟨t', env', hmem⟩ | rfl)
        · exact ⟨t', env', List.mem_append_left _ hmem⟩
        · exact ⟨t, env, by simp⟩
      · rintro ⟨t', env', hmem⟩
        rcases List.mem_append.mp hmem with hmem | hmem
        · exact .inl ⟨t', env', hmem⟩
        · obtain ⟨-, hl⟩ := Prod.mk.injEq .. ▸ List.mem_singleton.mp hmem
          obtain ⟨-, rfl⟩ := Label.call.injEq .. ▸ hl
          exact .inr rfl

/-- Readers see one record for each mentor of the index, in its order. -/
theorem getVouches_pairs (hs : p.Sound) (now : Nat) (learner : Address) :
    (getVouches now p learner).map (fun record => (record.mentor, record.learner)) =
      (p.learnerVouches learner).map fun mentor => (mentor, learner) := by
  have hsome : ∀ mentor ∈ p.learnerVouches learner, ∃ record,
      p.vouches mentor learner = some record ∧
        (record.shown now).mentor = mentor ∧ (record.shown now).learner = learner := by
    intro mentor hm
    obtain ⟨record, hfound⟩ :=
      Option.isSome_iff_exists.mp (((hs.agrees learner).listed.mem_iff mentor).mp hm)
    obtain ⟨hmentor, hlearner, -⟩ := hs.keyed mentor learner record hfound
    refine ⟨record, hfound, ?_⟩
    unfold VouchRecord.shown
    split
    · exact ⟨hmentor, hlearner⟩
    · exact ⟨hmentor, hlearner⟩
  unfold getVouches
  generalize p.learnerVouches learner = mentors at hsome ⊢
  induction mentors with
  | nil => rfl
  | cons mentor mentors ih =>
    obtain ⟨record, hfound, hmentor, hlearner⟩ := hsome mentor List.mem_cons_self
    have hrest := ih fun m hm => hsome m (List.mem_cons_of_mem _ hm)
    simp [hfound, hmentor, hlearner, hrest]

/-- In every reachable state the total of a learner is the sum of the active
boosts, there is a baseline exactly while it is positive, and the index lists
each mentor that ever vouched once and nobody else. -/
theorem vouching_store_consistent {s₀ : State W} {tr : List (State W × Label W)}
    (h0 : Deployed s₀) (h : Run (Step c) s₀ tr s) (learner : Address) :
    s.vouching.learnerTotalBoost learner = activeBoost s.vouching learner ∧
    ((s.vouching.learnerBaseline learner).isSome = true ↔
      0 < s.vouching.learnerTotalBoost learner) ∧
    (∀ mentor record, s.vouching.vouches mentor learner = some record → record.active = true →
      record.boostAmount ≤ s.vouching.learnerTotalBoost learner ∧
        ∃ baseline, s.vouching.learnerBaseline learner = some baseline) ∧
    (∀ mentor, (∃ t env, (t, .call env (.vouch mentor learner)) ∈ tr) ↔
      mentor ∈ s.vouching.learnerVouches learner) ∧
    (∀ mentor, (∃ record, s.vouching.vouches mentor learner = some record) ↔
      (s.vouching.learnerVouches learner).count mentor = 1) ∧
    ∀ now, (getVouches now s.vouching learner).map (fun r => (r.mentor, r.learner)) =
        (s.vouching.learnerVouches learner).map (fun mentor => (mentor, learner)) ∧
      ((getVouches now s.vouching learner).map fun r => (r.mentor, r.learner)).Nodup := by
  have hs := sound_of_reachable (h.reachable h0)
  have ha := hs.agrees learner
  refine ⟨ha.total, ha.baseline, ?_, ?_, ?_, ?_⟩
  · intro mentor record hfound hactive
    exact ⟨ha.boost_le hfound hactive, hs.baseline_of_active hfound hactive⟩
  · intro mentor
    exact (index_of_run h0 h).symm
  · intro mentor
    rw [← Option.isSome_iff_exists, ← Storage.column, ← ha.listed.mem_iff]
    constructor
    · exact List.count_eq_one_of_mem ha.listed.nodup
    · intro hcount
      exact List.count_pos_iff.mp (by omega)
  · intro now
    have hpairs := getVouches_pairs hs now learner
    refine ⟨hpairs, ?_⟩
    rw [hpairs]
    exact ha.listed.nodup.map fun a b hab => (Prod.mk.inj hab).1

/-- A reputation contract that only keeps scores. -/
def Clients.scoring : Clients (Address → Nat) where
  self := 7
  getScore := fun _ user w => .ok (w user)
  addBoost := fun _ _ _ user amount w => .ok (Function.update w user (w user + amount))
  removeBoost := fun _ _ _ user amount w => .ok (Function.update w user (w user - amount))

/-- Mentors `21` and `22` vouch for learner `30`; `21` revokes and vouches again. -/
def sampleLabels : List (Label (Address → Nat)) :=
  [.call (Env.signedBy [10] 50) (.initializeContract 10 3 10),
    .call (Env.signedBy [10] 60) (.setMentor 10 21 true),
    .call (Env.signedBy [10] 60) (.setMentor 10 22 true),
    .call (Env.signedBy [21] 100) (.vouch 21 30),
    .call (Env.signedBy [22] 200) (.vouch 22 30),
    .call (Env.signedBy [21] 300) (.revokeVouch 21 30),
    .call (Env.signedBy [21] 400) (.vouch 21 30)]

def sampleStart : State (Address → Nat) := ⟨Storage.empty, fun _ => 50⟩

theorem vouching_store_consistent_sample : ∃ s : State (Address → Nat),
    s.vouching.learnerTotalBoost 30 = 20 ∧
    s.vouching.learnerTotalBoost 30 = activeBoost s.vouching 30 ∧
    s.vouching.learnerBaseline 30 = some 50 ∧
    (getVouches 500 s.vouching 30).map (fun r => (r.mentor, r.learner)) = [(21, 30), (22, 30)] := by
  have hrun : (replay (take .scoring) sampleStart sampleLabels).toOption.map
      (fun r => (r.2.vouching.learnerTotalBoost 30, r.2.vouching.learnerBaseline 30,
        r.2.vouching.learnerVouches 30)) = some (20, some 50, [21, 22]) := by decide +kernel
  obtain ⟨tr, s, hr, hs⟩ := replay_observed hrun
  obtain ⟨htotal, hbase, hindex⟩ :
      s.vouching.learnerTotalBoost 30 = 20 ∧ s.vouching.learnerBaseline 30 = some 50 ∧
        s.vouching.learnerVouches 30 = [21, 22] := by simpa using hs
  have h0 : Deployed sampleStart := rfl
  have hstep : Run (Step .scoring) sampleStart tr s := Run.of_replay (fun _ _ _ _ h => h) hr
  obtain ⟨hsum, -, -, -, -, hvouches⟩ := vouching_store_consistent h0 hstep 30
  refine ⟨s, htotal, hsum, hbase, ?_⟩
  rw [(hvouches 500).1, hindex]
  rfl

end StepFi.Vouching

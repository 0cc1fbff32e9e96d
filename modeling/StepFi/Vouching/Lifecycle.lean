import StepFi.Vouching.Store

/-!
# The life of a vouch

A mentor the administrator has verified vouches for a learner, and may do so again
once the vouch is over. It ends by the mentor's own hand at any time, and by anyone's
after its thirty days. What a vouch lends is fixed when the contract is initialised,
so a learner's total is that boost times the active vouches (`vouches_follow_mentors`).
-/

namespace StepFi.Vouching

open Lib

variable {W : Type} {c : Clients W} {env : Env} {s s' : State W} {p p' : Storage}
variable {mentor learner : Address} {record : VouchRecord} {call : Call} {l : Label W}
variable {tr : List (State W × Label W)}

/-- The stored flag of a vouch, none before the first one. -/
def Storage.standing (p : Storage) (mentor learner : Address) : Option Bool :=
  (p.vouches mentor learner).map VouchRecord.active

/-- The time of a vouch, none before the first one. -/
def Storage.since (p : Storage) (mentor learner : Address) : Option Nat :=
  (p.vouches mentor learner).map VouchRecord.ts

/-- The flag a call leaves on the vouch it is about. -/
def Call.marks (mentor learner : Address) : Call → Option Bool
  | .vouch m l => if m = mentor ∧ l = learner then some true else none
  | .revokeVouch m l => if m = mentor ∧ l = learner then some false else none
  | .expireVouch m l => if m = mentor ∧ l = learner then some false else none
  | _ => none

/-- What a call says about a mentor. -/
def Call.verifies (mentor : Address) : Call → Option Bool
  | .setMentor _ m verified => if m = mentor then some verified else none
  | _ => none

def Label.marks (mentor learner : Address) : Label W → Option Bool
  | .call _ call => call.marks mentor learner
  | .world _ => none

/-- The time from which a step has the mentor vouch for the learner. -/
def Label.dates (mentor learner : Address) : Label W → Option Nat
  | .call env (.vouch m l) => if m = mentor ∧ l = learner then some env.timestamp else none
  | _ => none

def Label.verifies (mentor : Address) : Label W → Option Bool
  | .call _ call => call.verifies mentor
  | .world _ => none

/-- The mentor takes the vouch back, or its time was over. -/
def Ends (p : Storage) (mentor learner : Address) : Label W → Prop
  | .call env (.revokeVouch m l) => m = mentor ∧ l = learner ∧ env.auths mentor = true
  | .call env (.expireVouch m l) => m = mentor ∧ l = learner ∧
      ∃ record, p.vouches mentor learner = some record ∧ record.expiry < env.timestamp
  | _ => False

/-! ## What a call does to the vouches -/

/-- What a call does to the vouches, the mentors and what both rest on. -/
inductive Change (env : Env) (p : Storage) : Call → Storage → Prop
  | initialized {admin reputation : Address} {boost : Nat} {p' : Storage} :
      p.admin = none → p'.admin = some admin → p'.vouchBoost = some boost →
      p'.vouches = p.vouches → p'.mentors = p.mentors →
      Change env p (.initializeContract admin reputation boost) p'
  | mentorSet {admin mentor : Address} {verified : Bool} {p' : Storage} :
      p.admin = some admin → env.auths admin = true → p'.admin = p.admin →
      p'.vouchBoost = p.vouchBoost → p'.vouches = p.vouches →
      p'.mentors = Function.update p.mentors mentor verified →
      Change env p (.setMentor admin mentor verified) p'
  | given {mentor learner : Address} {boost : Nat} {p' : Storage} :
      env.auths mentor = true → p.mentors mentor = true → p.vouchBoost = some boost →
      p'.admin = p.admin → p'.vouchBoost = p.vouchBoost → p'.mentors = p.mentors →
      p'.vouches = (setVouch ⟨mentor, learner, env.timestamp, boost, true⟩ p).vouches →
      Change env p (.vouch mentor learner) p'
  | taken {mentor learner : Address} {record : VouchRecord} {call : Call} {p' : Storage} :
      (call = .revokeVouch mentor learner ∧ env.auths mentor = true ∨
        call = .expireVouch mentor learner ∧ record.expiry < env.timestamp) →
      p.vouches mentor learner = some record → p'.admin = p.admin →
      p'.vouchBoost = p.vouchBoost → p'.mentors = p.mentors →
      p'.vouches = (setVouch { record with active := false } p).vouches →
      Change env p call p'
  | idle {mentor learner : Address} {record : VouchRecord} {p' : Storage} :
      p.vouches mentor learner = some record → record.active = false → p' = p →
      Change env p (.expireVouch mentor learner) p'
  | upgraded {newWasmHash : WasmHash} {p' : Storage} :
      p'.admin = p.admin → p'.vouchBoost = p.vouchBoost →
      p'.vouches = p.vouches → p'.mentors = p.mentors → Change env p (.upgrade newWasmHash) p'

theorem exec_change (h : exec c env call s = .ok s') :
    Change env s.vouching call s'.vouching := by
  cases call with
  | initializeContract admin reputation boost =>
    simp only [exec, onStorage, initializeContract, bind_ok, pure_ok, ensure_ok,
      exists_const] at h
    obtain ⟨_, ⟨_, -, hnone, -, rfl⟩, rfl⟩ := h
    exact .initialized hnone rfl rfl rfl rfl
  | setMentor admin mentor verified =>
    simp only [exec, onStorage, setMentor, requireAdmin, getAdmin, bind_ok, pure_ok,
      requireAuth_ok, demand_ok, ensure_ok, enterNonReentrant_ok, exists_const] at h
    obtain ⟨_, ⟨hauth, ⟨_, hadmin, rfl⟩, _, ⟨-, rfl⟩, rfl⟩, rfl⟩ := h
    exact .mentorSet hadmin hauth rfl rfl rfl rfl
  | vouch mentor learner =>
    obtain ⟨_, boost, _, hlends⟩ := vouch_spec h
    rw [hlends.lent]
    exact .given hlends.auth hlends.verified hlends.amount rfl rfl rfl rfl
  | revokeVouch mentor learner =>
    obtain ⟨hauth, record, hfound, -, hd⟩ := revokeVouch_ok.mp h
    obtain ⟨_, _, hw⟩ := deactivate_ok.mp hd
    rw [hw.withdrawn]
    exact .taken (.inl ⟨rfl, hauth⟩) hfound rfl rfl rfl rfl
  | expireVouch mentor learner =>
    obtain ⟨record, hfound, ⟨hinactive, rfl⟩ | ⟨-, hexpired, hd⟩⟩ := expireVouch_ok.mp h
    · exact .idle hfound hinactive rfl
    · obtain ⟨_, _, hw⟩ := deactivate_ok.mp hd
      rw [hw.withdrawn]
      exact .taken (.inr ⟨rfl, hexpired⟩) hfound rfl rfl rfl rfl
  | upgrade newWasmHash =>
    simp only [exec, onStorage, upgrade, bind_ok, pure_ok, enterNonReentrant_ok] at h
    obtain ⟨_, ⟨_, -, _, -, _, ⟨-, rfl⟩, _, -, rfl⟩, rfl⟩ := h
    exact .upgraded rfl rfl rfl rfl

/-! ## One step -/

theorem setVouch_map {α : Type} (f : VouchRecord → α) (record : VouchRecord) (p : Storage)
    (mentor learner : Address) :
    ((setVouch record p).vouches mentor learner).map f =
      (if record.mentor = mentor ∧ record.learner = learner then some (f record)
        else none).or ((p.vouches mentor learner).map f) := by
  by_cases hm : record.mentor = mentor
  · by_cases hl : record.learner = learner
    · subst hm hl
      simp [setVouch]
    · subst hm
      simp [setVouch, hl, Function.update_of_ne (Ne.symm hl)]
  · simp [setVouch, hm, Function.update_of_ne (Ne.symm hm)]

/-- A call writes the flag of the vouch it is about, and no other. -/
theorem Change.standing (hs : p.Sound) (h : Change env p call p') (mentor learner : Address) :
    p'.standing mentor learner = (call.marks mentor learner).or (p.standing mentor learner) := by
  unfold Storage.standing
  cases h with
  | initialized _ _ _ hvouches => rw [hvouches]; rfl
  | mentorSet _ _ _ _ hvouches => rw [hvouches]; rfl
  | upgraded _ _ hvouches => rw [hvouches]; rfl
  | given _ _ _ _ _ _ hvouches => rw [hvouches, setVouch_map]; rfl
  | @taken m l record _ _ hcall hfound _ _ _ hvouches =>
    obtain ⟨rfl, rfl, -⟩ := hs.keyed m l record hfound
    rw [hvouches, setVouch_map]
    rcases hcall with ⟨rfl, -⟩ | ⟨rfl, -⟩
    · rfl
    · rfl
  | @idle m l record _ hfound hinactive hsame =>
    subst hsame
    -- The call says "over" of a vouch that is.
    by_cases hkey : m = mentor ∧ l = learner
    · obtain ⟨rfl, rfl⟩ := hkey
      simp [Call.marks, hfound, hinactive]
    · simp [Call.marks, hkey]

/-- A vouch dates the record, and its end keeps the date. -/
theorem Change.since (hs : p.Sound) (h : Change env p call p') (mentor learner : Address) :
    p'.since mentor learner =
      ((Label.call (W := W) env call).dates mentor learner).or (p.since mentor learner) := by
  unfold Storage.since
  cases h with
  | initialized _ _ _ hvouches => rw [hvouches]; rfl
  | mentorSet _ _ _ _ hvouches => rw [hvouches]; rfl
  | upgraded _ _ hvouches => rw [hvouches]; rfl
  | given _ _ _ _ _ _ hvouches => rw [hvouches, setVouch_map]; rfl
  | @taken m l record _ _ hcall hfound _ _ _ hvouches =>
    obtain ⟨rfl, rfl, -⟩ := hs.keyed m l record hfound
    have hdates : (Label.call (W := W) env call).dates mentor learner = none := by
      rcases hcall with ⟨rfl, -⟩ | ⟨rfl, -⟩
      · rfl
      · rfl
    rw [hvouches, setVouch_map, hdates, Option.none_or]
    by_cases hkey : record.mentor = mentor ∧ record.learner = learner
    · obtain ⟨rfl, rfl⟩ := hkey
      simp [hfound]
    · simp [hkey]
  | idle _ _ hsame => rw [hsame]; rfl

theorem Step.standing (hs : s.vouching.Sound) (h : Step c s l s') (mentor learner : Address) :
    s'.vouching.standing mentor learner =
      (l.marks mentor learner).or (s.vouching.standing mentor learner) := by
  cases l with
  | call env call => exact (exec_change h).standing hs mentor learner
  | world w =>
    cases h
    rfl

theorem Step.since (hs : s.vouching.Sound) (h : Step c s l s') (mentor learner : Address) :
    s'.vouching.since mentor learner =
      (l.dates mentor learner).or (s.vouching.since mentor learner) := by
  cases l with
  | call env call => exact (exec_change h).since hs mentor learner
  | world w =>
    cases h
    rfl

/-- Only the administrator's word changes who is a mentor. -/
theorem Step.mentors (h : Step c s l s') (mentor : Address) :
    s'.vouching.mentors mentor = (l.verifies mentor).getD (s.vouching.mentors mentor) := by
  cases l with
  | call env call =>
    cases exec_change h with
    | initialized _ _ _ _ hmentors => exact congrFun hmentors mentor
    | @mentorSet _ m verified _ _ _ _ _ _ hmentors =>
      show s'.vouching.mentors mentor = (if m = mentor then some verified else none).getD _
      by_cases hm : m = mentor
      · subst hm
        simp [hmentors]
      · simp [hmentors, hm, Function.update_of_ne (Ne.symm hm)]
    | given _ _ _ _ _ hmentors => exact congrFun hmentors mentor
    | taken hcall _ _ _ hmentors =>
      rcases hcall with ⟨rfl, -⟩ | ⟨rfl, -⟩
      · exact congrFun hmentors mentor
      · exact congrFun hmentors mentor
    | idle _ _ hsame => rw [hsame]; rfl
    | upgraded _ _ _ hmentors => exact congrFun hmentors mentor
  | world w =>
    cases h
    rfl

/-- A vouch is over after a step only if it was before, or the step ended it. -/
theorem Step.ends (hs : s.vouching.Sound) (h : Step c s l s')
    (hbefore : s.vouching.standing mentor learner = some true)
    (hafter : s'.vouching.standing mentor learner ≠ some true) :
    Ends s.vouching mentor learner l := by
  have hmarks : l.marks mentor learner = some false := by
    rw [h.standing hs, hbefore] at hafter
    cases hm : l.marks mentor learner with
    | none => simp [hm] at hafter
    | some flag =>
      cases flag with
      | false => rfl
      | true => simp [hm] at hafter
  cases l with
  | world w => cases hmarks
  | call env call =>
    cases exec_change h with
    | initialized => cases hmarks
    | mentorSet => cases hmarks
    | upgraded => cases hmarks
    | given => simp [Label.marks, Call.marks] at hmarks
    | taken hcall hfound =>
      rcases hcall with ⟨rfl, hauth⟩ | ⟨rfl, hexpired⟩
      · simp only [Label.marks, Call.marks, ite_eq_left_iff, reduceCtorEq, imp_false,
          Decidable.not_not] at hmarks
        obtain ⟨rfl, rfl⟩ := hmarks
        exact ⟨rfl, rfl, hauth⟩
      · simp only [Label.marks, Call.marks, ite_eq_left_iff, reduceCtorEq, imp_false,
          Decidable.not_not] at hmarks
        obtain ⟨rfl, rfl⟩ := hmarks
        exact ⟨rfl, rfl, _, hfound, hexpired⟩
    | idle _ _ hsame => exact absurd hbefore (hsame ▸ hafter)

/-! ## Over a run -/

/-- What a run has written about mentors and vouches. -/
structure Chronicle (tr : List (State W × Label W)) (p : Storage) : Prop where
  unset : p.admin = none → p.vouchBoost = none
  ruled : ∀ x ∈ tr, ∀ env admin mentor verified,
    x.2 = .call env (.setMentor admin mentor verified) →
      p.admin = some admin ∧ env.auths admin = true
  lent : ∀ mentor learner record, p.vouches mentor learner = some record →
    p.vouchBoost = some record.boostAmount

theorem Chronicle.empty : Chronicle (W := W) [] Storage.empty where
  unset := fun _ => rfl
  ruled := by simp
  lent := by
    intro mentor learner record h
    cases h

/-- A record written with the boost of the contract. -/
theorem lent_setVouch (h : ∀ mentor learner record, p.vouches mentor learner = some record →
    p.vouchBoost = some record.boostAmount) {new : VouchRecord}
    (hnew : p.vouchBoost = some new.boostAmount) (mentor learner : Address)
    (hfound : (setVouch new p).vouches mentor learner = some record) :
    p.vouchBoost = some record.boostAmount := by
  have hboost := setVouch_map VouchRecord.boostAmount new p mentor learner
  rw [hfound] at hboost
  by_cases hkey : new.mentor = mentor ∧ new.learner = learner
  · rw [if_pos hkey] at hboost
    rw [hnew]
    simpa using hboost.symm
  · rw [if_neg hkey, Option.none_or] at hboost
    obtain ⟨old, hold, hsame⟩ := Option.map_eq_some_iff.mp hboost.symm
    rw [h mentor learner old hold, hsame]

theorem Chronicle.step (hc : Chronicle tr s.vouching) (h : Step c s l s') :
    Chronicle (tr ++ [(s, l)]) s'.vouching := by
  -- A call that keeps the administrator and is not the administrator's own keeps `ruled`.
  have hruled : s'.vouching.admin = s.vouching.admin →
      (∀ env admin mentor verified, l = .call env (.setMentor admin mentor verified) →
        s.vouching.admin = some admin ∧ env.auths admin = true) →
      ∀ x ∈ tr ++ [(s, l)], ∀ env admin mentor verified,
        x.2 = .call env (.setMentor admin mentor verified) →
          s'.vouching.admin = some admin ∧ env.auths admin = true := by
    intro hadmin hnow x hx env admin mentor verified hcall
    rw [hadmin]
    rcases List.mem_append.mp hx with hx | hx
    · exact hc.ruled x hx env admin mentor verified hcall
    · obtain rfl := List.mem_singleton.mp hx
      exact hnow env admin mentor verified hcall
  cases l with
  | world w =>
    cases h
    exact ⟨hc.unset, hruled rfl (by simp), hc.lent⟩
  | call env call =>
    cases exec_change h with
    | initialized hnone hadmin hboost hvouches =>
      refine ⟨?_, ?_, ?_⟩
      · simp [hadmin]
      · intro x hx env admin mentor verified hcall
        rcases List.mem_append.mp hx with hx | hx
        · obtain ⟨hold, -⟩ := hc.ruled x hx env admin mentor verified hcall
          simp [hnone] at hold
        · obtain rfl := List.mem_singleton.mp hx
          simp at hcall
      · intro mentor learner record hfound
        rw [hvouches] at hfound
        have hold := hc.lent mentor learner record hfound
        simp [hc.unset hnone] at hold
    | mentorSet hstored hauth hadmin hboost hvouches =>
      refine ⟨by rw [hadmin, hboost]; exact hc.unset, hruled hadmin ?_, ?_⟩
      · intro env admin mentor verified hcall
        simp only [Label.call.injEq, Call.setMentor.injEq] at hcall
        obtain ⟨rfl, rfl, -, -⟩ := hcall
        exact ⟨hstored, hauth⟩
      · rw [hboost, hvouches]
        exact hc.lent
    | given _ _ hstored hadmin hboost _ hvouches =>
      refine ⟨by rw [hadmin, hboost]; exact hc.unset, hruled hadmin (by simp), ?_⟩
      rw [hboost, hvouches]
      exact fun _ _ _ hfound => lent_setVouch hc.lent hstored _ _ hfound
    | taken hcall hfound hadmin hboost _ hvouches =>
      refine ⟨by rw [hadmin, hboost]; exact hc.unset, hruled hadmin ?_, ?_⟩
      · rcases hcall with ⟨rfl, -⟩ | ⟨rfl, -⟩
        · simp
        · simp
      · rw [hboost, hvouches]
        intro mentor learner new hnew
        exact lent_setVouch hc.lent (by simpa using hc.lent _ _ _ hfound) mentor learner hnew
    | idle _ _ hsame =>
      rw [hsame] at hruled ⊢
      exact ⟨hc.unset, hruled rfl (by simp), hc.lent⟩
    | upgraded hadmin hboost hvouches =>
      refine ⟨by rw [hadmin, hboost]; exact hc.unset, hruled hadmin (by simp), ?_⟩
      rw [hboost, hvouches]
      exact hc.lent

/-- The active vouches of a learner all lend the same. -/
theorem Chronicle.total (hc : Chronicle tr p) (hs : p.Sound) {boost : Nat}
    (hboost : p.vouchBoost = some boost) (learner : Address) :
    p.learnerTotalBoost learner = (activeVouches p learner).length * boost := by
  have hsame : ∀ amount ∈ (activeVouches p learner).map VouchRecord.boostAmount,
      amount = boost := by
    intro amount hamount
    obtain ⟨record, hrecord, rfl⟩ := List.mem_map.mp hamount
    obtain ⟨mentor, -, hfound⟩ := List.mem_filterMap.mp (List.mem_of_mem_filter hrecord)
    have hlent := hc.lent mentor learner record hfound
    exact Option.some.inj (hlent.symm.trans hboost)
  rw [(hs.agrees learner).total, activeBoost, List.eq_replicate_of_mem hsame,
    List.sum_replicate_nat, List.length_map]

/-- Over every run from deployment, whatever the reputation contract does: a vouch
stands or is over as the last call about it left it, and dates from the last time its
mentor vouched. Mentors are those the one administrator last verified, a vouch is
given only by a mentor who signs and is one at that moment, and it ends only when the
mentor signs or after its thirty days. Every vouch lends the boost of the contract, so
a learner's total counts the active ones. -/
theorem vouches_follow_mentors {s₀ : State W} (h : Run (Step c) s₀ tr s) (h0 : Deployed s₀) :
    (∀ mentor learner,
      s.vouching.standing mentor learner = lastWrite (fun l => l.marks mentor learner) tr ∧
        s.vouching.since mentor learner = lastWrite (fun l => l.dates mentor learner) tr) ∧
    (∀ mentor, s.vouching.mentors mentor =
      (lastWrite (fun l => l.verifies mentor) tr).getD false) ∧
    (∀ x ∈ tr, ∀ env admin mentor verified,
      x.2 = .call env (.setMentor admin mentor verified) →
        s.vouching.admin = some admin ∧ env.auths admin = true) ∧
    (∀ x ∈ tr, ∀ env mentor learner, x.2 = .call env (.vouch mentor learner) →
      env.auths mentor = true ∧ x.1.vouching.mentors mentor = true) ∧
    (∀ x ∈ outcomes tr s, ∀ mentor learner,
      x.1.vouching.standing mentor learner = some true →
      x.2.2.vouching.standing mentor learner ≠ some true →
        Ends x.1.vouching mentor learner x.2.1) ∧
    ∀ learner boost, s.vouching.vouchBoost = some boost →
      s.vouching.learnerTotalBoost learner =
        (activeVouches s.vouching learner).length * boost := by
  have hsound : ∀ t, Reachable Deployed (Step c) t → t.vouching.Sound :=
    fun _ => sound_of_reachable
  have hchronicle : Chronicle tr s.vouching :=
    h.history (P := fun tr s => Chronicle tr s.vouching) (h0 ▸ .empty)
      fun _ _ _ _ hc hs => hc.step hs
  have hruns : Run (fun s l s' => s.vouching.Sound ∧ Step c s l s') s₀ tr s :=
    h.restrict h0 fun _ _ _ hreach _ hs => ⟨hsound _ hreach, hs⟩
  refine ⟨?_, ?_, hchronicle.ruled, ?_, ?_, ?_⟩
  · intro mentor learner
    have hstanding : s₀.vouching.standing mentor learner = none := by rw [h0]; rfl
    have hsince : s₀.vouching.since mentor learner = none := by rw [h0]; rfl
    constructor
    · exact hruns.cell_eq_lastWrite (fun s => s.vouching.standing mentor learner) hstanding
        fun _ _ _ hs => hs.2.standing hs.1 mentor learner
    · exact hruns.cell_eq_lastWrite (fun s => s.vouching.since mentor learner) hsince
        fun _ _ _ hs => hs.2.since hs.1 mentor learner
  · intro mentor
    have hnone : s₀.vouching.mentors mentor = false := by rw [h0]; rfl
    rw [← hnone]
    exact h.value_eq_lastWrite (fun s => s.vouching.mentors mentor)
      fun _ _ _ hs => hs.mentors mentor
  · rintro ⟨t, l⟩ hmem env mentor learner rfl
    obtain ⟨pre, post, rfl⟩ := List.append_of_mem hmem
    obtain ⟨-, _, hstep⟩ := h.step_at
    obtain ⟨_, _, _, hlends⟩ := vouch_spec hstep
    exact ⟨hlends.auth, hlends.verified⟩
  · have hiff := h.outcomes_iff_steps (C := fun _ _ => True) h0
      (Q := fun s l s' => ∀ mentor learner, s.vouching.standing mentor learner = some true →
        s'.vouching.standing mentor learner ≠ some true → Ends s.vouching mentor learner l)
      fun _ _ _ hreach hs => iff_of_true
        (fun _ _ hbefore hafter => hs.ends (hsound _ hreach) hbefore hafter) trivial
    exact hiff.mpr fun _ _ => trivial
  · intro learner boost hboost
    exact hchronicle.total (hsound s (h.reachable h0)) hboost learner

/-- Mentor `21` vouches for learner `30`, takes it back and vouches again, beside `22`. -/
theorem vouches_follow_mentors_sample :
    ∃ (tr : List (State (Address → Nat) × Label (Address → Nat))) (s : State (Address → Nat)),
      s.vouching.standing 21 30 = some true ∧
      lastWrite (fun l => l.marks 21 30) tr = some true ∧
      lastWrite (fun l => l.dates 21 30) tr = some 400 ∧
      s.vouching.learnerTotalBoost 30 = (activeVouches s.vouching 30).length * 10 := by
  have hreplay : (replay (take .scoring) sampleStart sampleLabels).toOption.map
      (fun r => (r.2.vouching.vouches 21 30, r.2.vouching.vouchBoost)) =
        some (some ⟨21, 30, 400, 10, true⟩, some 10) := by decide +kernel
  obtain ⟨tr, s, hr, hs⟩ := replay_observed hreplay
  obtain ⟨hfound, hboost⟩ : s.vouching.vouches 21 30 = some ⟨21, 30, 400, 10, true⟩ ∧
      s.vouching.vouchBoost = some 10 := by simpa using hs
  have hrun : Run (Step .scoring) sampleStart tr s := Run.of_replay (fun _ _ _ _ h => h) hr
  obtain ⟨hcells, -, -, -, -, htotal⟩ := vouches_follow_mentors hrun rfl
  have hstanding : s.vouching.standing 21 30 = some true := by simp [Storage.standing, hfound]
  have hsince : s.vouching.since 21 30 = some 400 := by simp [Storage.since, hfound]
  exact ⟨tr, s, hstanding, (hcells 21 30).1.symm.trans hstanding,
    (hcells 21 30).2.symm.trans hsince, htotal 30 10 hboost⟩

end StepFi.Vouching

import StepFi.Vouching.Store

/-!
# Active for writers and for readers

`vouch` and `revoke_vouch` go by the stored flag, `get_vouches` by the flag and the
clock. A vouch that is stored as active after its time is shown to readers as
inactive; until someone expires it, its mentor can neither vouch anew nor is told
that there is nothing to revoke (`activity_agrees_iff`).
-/

namespace StepFi.Vouching

open Lib

variable {W : Type} {c : Clients W} {env : Env} {s : State W} {p : Storage} {now : Nat}
variable {mentor learner : Address} {record : VouchRecord}

/-! ## What writers reject -/

/-- Neither of the two failures that speak of a vouch's activity. -/
def Unrelated (e : Failure) : Prop :=
  e ≠ .vouching .vouchAlreadyActive ∧ e ≠ .vouching .vouchNotActive

instance (e : Failure) : Decidable (Unrelated e) := inferInstanceAs (Decidable (_ ∧ _))

theorem enterNonReentrant_fails : FailsIn Unrelated (enterNonReentrant p) :=
  .bind (.ensure (by decide)) fun _ => .ok _

theorem getReputationContract_fails : FailsIn Unrelated (getReputationContract p) :=
  .demand (by decide)

theorem tryInvoke_fails {α : Type} {x : Except Failure α} : FailsIn Unrelated (tryInvoke x) :=
  .demand (by decide)

theorem getReputationScore_fails {w : W} :
    FailsIn Unrelated (getReputationScore c p learner w) :=
  .bind getReputationContract_fails fun _ => tryInvoke_fails

theorem removeIfPositive_fails {removable : Nat} {w : W} :
    FailsIn Unrelated (removeIfPositive c env p learner removable w) := by
  unfold removeIfPositive
  split
  · exact .bind getReputationContract_fails fun _ => tryInvoke_fails
  · exact .ok _

theorem captureBaseline_fails : FailsIn Unrelated (captureBaseline c learner s) := by
  unfold captureBaseline
  split
  · exact .bind getReputationScore_fails fun _ => .ok _
  · exact .ok _

theorem checkedU32_fails {x : Int} : FailsIn Unrelated (checkedU32 .panic x) := by
  intro e h
  unfold checkedU32 at h
  split at h
  · cases h
  · cases h
    decide

theorem getVouchBoost_fails : FailsIn Unrelated (getVouchBoost p) :=
  .demand (by decide)

theorem addReputationBoost_fails {boostAmount : Nat} {w : W} :
    FailsIn Unrelated (addReputationBoost c env p learner boostAmount w) :=
  .bind getReputationContract_fails fun _ => tryInvoke_fails

theorem deactivate_fails : FailsIn Unrelated (deactivate c env learner record s) :=
  .bind enterNonReentrant_fails fun _ =>
    .bind (.bind getReputationScore_fails fun _ => .bind removeIfPositive_fails fun _ => .ok _)
      fun _ => .ok _

/-- A verified mentor is told by the stored flag that the vouch is active. -/
theorem vouch_rejects (hauth : env.auths mentor = true)
    (hverified : s.vouching.mentors mentor = true) :
    vouch c env mentor learner s = .error (.vouching .vouchAlreadyActive) ↔
      ∃ record, s.vouching.vouches mentor learner = some record ∧ record.active = true := by
  have hsigned : requireAuth env mentor = .ok () := requireAuth_ok.mpr hauth
  have hmentor : ensure (s.vouching.mentors mentor = true) (Failure.vouching .mentorNotVerified) =
      .ok () := ensure_ok.mpr hverified
  rw [vouch, hsigned, ok_bind, hmentor, ok_bind]
  by_cases hactive : ∃ record, s.vouching.vouches mentor learner = some record ∧
      record.active = true
  · refine iff_of_true ?_ hactive
    obtain ⟨record, hfound, hrecord⟩ := hactive
    have hcheck : checkInactive s.vouching mentor learner =
        .error (.vouching .vouchAlreadyActive) := by
      simp only [checkInactive, hfound]
      exact ensure_error.mpr ⟨by simp [hrecord], rfl⟩
    rw [hcheck]
    rfl
  · refine iff_of_false ?_ hactive
    have hcheck : checkInactive s.vouching mentor learner = .ok () := by
      refine checkInactive_ok.mpr fun record hfound => ?_
      rw [← Bool.not_eq_true]
      exact fun hrecord => hactive ⟨record, hfound, hrecord⟩
    rw [hcheck, ok_bind]
    intro h
    have hfails := FailsIn.bind enterNonReentrant_fails (fun _ => .bind getVouchBoost_fails
      fun _ => .bind captureBaseline_fails fun _ => .bind addReputationBoost_fails
        fun _ => .bind checkedU32_fails fun _ => .ok _) _ h
    exact hfails.1 rfl

/-- A mentor is told by the stored flag that the vouch is not active. -/
theorem revokeVouch_rejects (hauth : env.auths mentor = true) :
    revokeVouch c env mentor learner s = .error (.vouching .vouchNotActive) ↔
      ∃ record, s.vouching.vouches mentor learner = some record ∧ record.active = false := by
  have hsigned : requireAuth env mentor = .ok () := requireAuth_ok.mpr hauth
  rw [revokeVouch, hsigned, ok_bind, getVouch]
  cases hfound : s.vouching.vouches mentor learner with
  | none => simp [demand, Bind.bind, Except.bind]
  | some record =>
    rw [demand_ok.mpr rfl, ok_bind]
    simp only [Option.some.injEq, exists_eq_left']
    cases hactive : record.active with
    | false => exact iff_of_true rfl rfl
    | true =>
      refine iff_of_false (fun h => ?_) (by simp)
      exact (deactivate_fails _ h).2 rfl

/-! ## What readers see -/

/-- The vouch is stored as active, and its time is over. -/
def Lapsed (p : Storage) (mentor learner : Address) (now : Nat) : Prop :=
  ∃ record, p.vouches mentor learner = some record ∧ record.active = true ∧ record.expiry < now

/-- `get_vouches` lists the mentor's record with this flag. -/
def Reports (now : Nat) (p : Storage) (mentor learner : Address) (active : Bool) : Prop :=
  ∃ record ∈ getVouches now p learner, record.mentor = mentor ∧ record.active = active

@[simp] theorem shown_mentor : (record.shown now).mentor = record.mentor := by
  unfold VouchRecord.shown
  split <;> rfl

theorem shown_active :
    (record.shown now).active = true ↔ record.active = true ∧ ¬record.expiry < now := by
  unfold VouchRecord.shown
  split
  · rename_i hlapsed
    simp [hlapsed.2]
  · rename_i hnot
    constructor
    · exact fun hactive => ⟨hactive, fun hexpired => hnot ⟨hactive, hexpired⟩⟩
    · exact And.left

/-- A record that is stored is listed. -/
theorem reports_iff (hs : p.Sound) {active : Bool} :
    Reports now p mentor learner active ↔
      ∃ record, p.vouches mentor learner = some record ∧ (record.shown now).active = active := by
  simp only [Reports, getVouches, List.mem_filterMap, Option.map_eq_some_iff]
  constructor
  · rintro ⟨_, ⟨m, -, record, hfound, rfl⟩, hmentor, hactive⟩
    obtain ⟨hkey, -, -⟩ := hs.keyed m learner record hfound
    rw [shown_mentor, hkey] at hmentor
    exact ⟨record, hmentor ▸ hfound, hactive⟩
  · rintro ⟨record, hfound, hactive⟩
    obtain ⟨hkey, -, -⟩ := hs.keyed mentor learner record hfound
    have hlisted := (hs.agrees learner).listed.mem (k := mentor) hfound
    exact ⟨_, ⟨mentor, hlisted, record, hfound, rfl⟩, by rw [shown_mentor, hkey], hactive⟩

/-- In every reachable state and at every time: what `get_vouches` reports as active
is what `vouch` rejects as active, and what it lists as inactive is what
`revoke_vouch` rejects as not active, each exactly if the vouch is not one stored as
active whose time is over. -/
theorem activity_agrees_iff (h : Reachable Deployed (Step c) s) (hauth : env.auths mentor = true)
    (hverified : s.vouching.mentors mentor = true) :
    ((exec c env (.vouch mentor learner) s = .error (.vouching .vouchAlreadyActive) ↔
        Reports env.timestamp s.vouching mentor learner true) ↔
      ¬Lapsed s.vouching mentor learner env.timestamp) ∧
    ((exec c env (.revokeVouch mentor learner) s = .error (.vouching .vouchNotActive) ↔
        Reports env.timestamp s.vouching mentor learner false) ↔
      ¬Lapsed s.vouching mentor learner env.timestamp) := by
  have hs := sound_of_reachable h
  have hvouch : exec c env (.vouch mentor learner) s = .error (.vouching .vouchAlreadyActive) ↔ _ :=
    vouch_rejects hauth hverified
  have hrevoke : exec c env (.revokeVouch mentor learner) s = .error (.vouching .vouchNotActive) ↔
    _ := revokeVouch_rejects hauth
  rw [hvouch, hrevoke, reports_iff hs, reports_iff hs, Lapsed]
  cases hfound : s.vouching.vouches mentor learner with
  | none => simp
  | some record =>
    have hshown : (record.shown env.timestamp).active = true ↔
        record.active = true ∧ ¬record.expiry < env.timestamp := shown_active
    simp only [Option.some.injEq, exists_eq_left', ← Bool.not_eq_true, hshown]
    by_cases hactive : record.active = true
    · simp [hactive]
    · simp [hactive]

/-- At `500` both vouches for learner `30` are in their time. -/
theorem activity_agrees_iff_sample : ∃ s : State (Address → Nat),
    (exec .scoring (Env.signedBy [21] 500) (.vouch 21 30) s =
        .error (.vouching .vouchAlreadyActive) ↔ Reports 500 s.vouching 21 30 true) ∧
    (exec .scoring (Env.signedBy [21] 500) (.revokeVouch 21 30) s =
        .error (.vouching .vouchNotActive) ↔ Reports 500 s.vouching 21 30 false) := by
  have hrun : (replay (take .scoring) sampleStart sampleLabels).toOption.map
      (fun r => (r.2.vouching.mentors 21, r.2.vouching.vouches 21 30)) =
        some (true, some ⟨21, 30, 400, 10, true⟩) := by decide +kernel
  obtain ⟨_, s, hreach, hs⟩ :=
    Reachable.of_replay (I := Deployed) (R := Step .scoring) hrun rfl fun _ _ _ h => h
  obtain ⟨hverified, hfound⟩ := Prod.mk.injEq .. ▸ hs
  have hlapsed : ¬Lapsed s.vouching 21 30 500 := by
    rintro ⟨record, hrecord, -, hexpired⟩
    obtain rfl := Option.some.inj (hfound.symm.trans hrecord)
    exact absurd hexpired (by decide)
  have hauth : (Env.signedBy [21] 500).auths 21 = true := by decide
  exact ⟨s, (activity_agrees_iff hreach hauth hverified).1.mpr hlapsed,
    (activity_agrees_iff hreach hauth hverified).2.mpr hlapsed⟩

/-- The vouch of `400` after its thirty days: readers see it as inactive, its mentor
cannot renew it because it is active, and revoking it goes through. -/
theorem lapsed_vouch_active : ∃ s : State (Address → Nat),
    Reachable Deployed (Step .scoring) s ∧ s.vouching.mentors 21 = true ∧
    exec .scoring (Env.signedBy [21] 2592401) (.vouch 21 30) s =
      .error (.vouching .vouchAlreadyActive) ∧
    ¬Reports 2592401 s.vouching 21 30 true ∧ Reports 2592401 s.vouching 21 30 false ∧
    ∃ s', exec .scoring (Env.signedBy [21] 2592401) (.revokeVouch 21 30) s = .ok s' := by
  have hrun : (replay (take .scoring) sampleStart sampleLabels).toOption.map (fun r =>
      (r.2.vouching.mentors 21, r.2.vouching.vouches 21 30,
        (exec .scoring (Env.signedBy [21] 2592401) (.revokeVouch 21 30) r.2).toOption.map
          fun _ => ())) = some (true, some ⟨21, 30, 400, 10, true⟩, some ()) := by decide +kernel
  obtain ⟨_, s, hreach, hs⟩ :=
    Reachable.of_replay (I := Deployed) (R := Step .scoring) hrun rfl fun _ _ _ h => h
  simp only [Prod.mk.injEq] at hs
  obtain ⟨hverified, hfound, hrevoke⟩ := hs
  obtain ⟨s', hs', -⟩ := toOption_map_some.mp hrevoke
  have hsound := sound_of_reachable hreach
  refine ⟨s, hreach, hverified, ?_, ?_, ?_, s', hs'⟩
  · exact (vouch_rejects (by decide) hverified).mpr ⟨_, hfound, rfl⟩
  · rw [reports_iff hsound, hfound]
    decide
  · exact (reports_iff hsound).mpr ⟨_, hfound, rfl⟩

end StepFi.Vouching

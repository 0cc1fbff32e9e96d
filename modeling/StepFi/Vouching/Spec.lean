import StepFi.Vouching.Contract
import StepFi.Lib.Indexed

/-!
# What the vouching calls do

A successful call lends a boost (`Storage.lent`), takes one back
(`Storage.withdrawn`), or leaves the vouches alone. The store is sound when its
four pieces agree: the records, each learner's index of them, the total of the
active boosts, and the baseline kept while there are any.
-/

namespace StepFi.Vouching

open Lib

variable {W : Type} {c : Clients W} {env : Env} {s s' : State W} {p p' : Storage}
variable {mentor learner : Address} {record : VouchRecord}

/-- The storage after a vouch. -/
def Storage.lent (p : Storage) (record : VouchRecord) (baseline : Option Nat) : Storage :=
  { p with
    vouches := (setVouch record p).vouches
    learnerVouches := Function.update p.learnerVouches record.learner
      (enroll record.mentor (p.learnerVouches record.learner))
    learnerBaseline := Function.update p.learnerBaseline record.learner baseline
    learnerTotalBoost := Function.update p.learnerTotalBoost record.learner
      (p.learnerTotalBoost record.learner + record.boostAmount) }

/-- The storage after a removal. -/
def Storage.withdrawn (p : Storage) (learner : Address) (record : VouchRecord) : Storage :=
  { p with
    vouches := (setVouch { record with active := false } p).vouches
    learnerBaseline := Function.update p.learnerBaseline learner
      (if p.learnerTotalBoost learner - record.boostAmount = 0 then none
        else p.learnerBaseline learner)
    learnerTotalBoost := Function.update p.learnerTotalBoost learner
      (p.learnerTotalBoost learner - record.boostAmount) }

theorem addLearnerMentor_eq (learner mentor : Address) (p : Storage) :
    addLearnerMentor learner mentor p = { p with
      learnerVouches := Function.update p.learnerVouches learner
        (enroll mentor (p.learnerVouches learner)) } := by
  unfold addLearnerMentor enroll
  by_cases hm : mentor ∈ p.learnerVouches learner
  · simp [hm]
  · simp [hm]

@[simp] theorem enterNonReentrant_ok :
    enterNonReentrant p = .ok p' ↔
      p.reentrancyLocked = false ∧ { p with reentrancyLocked := true } = p' := by
  simp only [enterNonReentrant, bind_ok, pure_ok, ensure_ok, exists_const]

@[simp] theorem tryInvoke_ok {α : Type} {x : Except Failure α} {a : α} :
    tryInvoke x = .ok a ↔ x = .ok a := by
  unfold tryInvoke
  cases x with
  | error e => simp [Except.toOption, demand]
  | ok b => simp [Except.toOption, demand]

theorem checkInactive_ok {u : Unit} :
    checkInactive p mentor learner = .ok u ↔
      ∀ record, p.vouches mentor learner = some record → record.active = false := by
  unfold checkInactive
  cases p.vouches mentor learner with
  | none => simp
  | some existing => simp

/-! ## A vouch -/

/-- What becomes the baseline at a vouch: the score, when no vouch is active. -/
def Captured (c : Clients W) (learner : Address) (s : State W) (baseline : Option Nat) : Prop :=
  if s.vouching.learnerTotalBoost learner = 0 then
    ∃ reputation score, s.vouching.reputationContract = some reputation ∧
      c.getScore reputation learner s.world = .ok score ∧ baseline = some score
  else baseline = s.vouching.learnerBaseline learner

theorem captureBaseline_ok :
    captureBaseline c learner s = .ok p ↔
      ∃ baseline, Captured c learner s baseline ∧
        { s.vouching with
          learnerBaseline := Function.update s.vouching.learnerBaseline learner baseline } = p := by
  unfold captureBaseline Captured
  split
  · simp only [getReputationScore, getReputationContract, bind_ok, pure_ok, demand_ok,
      tryInvoke_ok, setLearnerBaseline]
    constructor
    · rintro ⟨score, ⟨reputation, hr, hscore⟩, rfl⟩
      exact ⟨_, ⟨reputation, score, hr, hscore, rfl⟩, rfl⟩
    · rintro ⟨_, ⟨reputation, score, hr, hscore, rfl⟩, rfl⟩
      exact ⟨score, ⟨reputation, hr, hscore⟩, rfl⟩
  · simp

/-- What a vouch by `mentor` for `learner` needs and leaves. -/
structure Lends (c : Clients W) (env : Env) (mentor learner : Address) (s s' : State W)
    (reputation boost : Nat) (baseline : Option Nat) : Prop where
  auth : env.auths mentor = true
  verified : s.vouching.mentors mentor = true
  inactive : ∀ record, s.vouching.vouches mentor learner = some record → record.active = false
  unlocked : s.vouching.reentrancyLocked = false
  contract : s.vouching.reputationContract = some reputation
  amount : s.vouching.vouchBoost = some boost
  captured : Captured c learner s baseline
  added : c.addBoost (env.callFrom c.self []) reputation c.self learner boost s.world = .ok s'.world
  fits : s.vouching.learnerTotalBoost learner + boost < 2 ^ 32
  lent : s'.vouching =
    s.vouching.lent ⟨mentor, learner, env.timestamp, boost, true⟩ baseline

theorem vouch_spec (h : vouch c env mentor learner s = .ok s') :
    ∃ reputation boost baseline, Lends c env mentor learner s s' reputation boost baseline := by
  simp only [vouch, bind_ok, pure_ok, requireAuth_ok, ensure_ok, exists_const, checkInactive_ok,
    enterNonReentrant_ok, getVouchBoost, addReputationBoost, getReputationContract, demand_ok,
    tryInvoke_ok, checkedU32_ok] at h
  obtain ⟨hauth, hverified, hinactive, _, ⟨hlock, rfl⟩, boost, hboost, q, hq, w,
    ⟨reputation, hr, hadd⟩, total, ⟨hfits, htotal⟩, rfl⟩ := h
  obtain ⟨baseline, hcap, rfl⟩ := captureBaseline_ok.mp hq
  rw [addLearnerMentor_eq] at hr
  refine ⟨reputation, boost, baseline, hauth, hverified, hinactive, hlock, hr, hboost, hcap,
    hadd, ?_, ?_⟩
  · dsimp only at hfits
    omega
  · dsimp only at htotal
    have : total = s.vouching.learnerTotalBoost learner + boost := by omega
    subst this
    simp only [addLearnerMentor_eq, setTotalVouchBoost, exitNonReentrant, setVouch,
      Storage.lent, hlock]

/-! ## A removal -/

/-- What a removal takes from a learner who scores `current`. -/
def Storage.removable (p : Storage) (learner : Address) (record : VouchRecord) (current : Nat) :
    Nat :=
  min (current - (p.learnerBaseline learner).getD current) record.boostAmount

theorem Storage.removable_le (p : Storage) (learner : Address) (record : VouchRecord)
    (current : Nat) : p.removable learner record current ≤ current :=
  Nat.le_trans (Nat.min_le_left ..) (Nat.sub_le ..)

/-- What the removal of a vouch needs and leaves. -/
structure Withdraws (c : Clients W) (env : Env) (learner : Address) (record : VouchRecord)
    (s s' : State W) (reputation current : Nat) : Prop where
  unlocked : s.vouching.reentrancyLocked = false
  contract : s.vouching.reputationContract = some reputation
  score : c.getScore reputation learner s.world = .ok current
  removed : removeIfPositive c env s.vouching learner
    (s.vouching.removable learner record current) s.world = .ok s'.world
  withdrawn : s'.vouching = s.vouching.withdrawn learner record

/-- The writes of a removal, inside the lock. -/
theorem withdrawn_eq (hlock : p.reentrancyLocked = false) {total : Nat}
    (htotal : total = p.learnerTotalBoost learner - record.boostAmount) :
    exitNonReentrant (setVouch { record with active := false }
      (if total = 0 then
        clearLearnerBaseline learner
          (setTotalVouchBoost learner total { p with reentrancyLocked := true })
      else setTotalVouchBoost learner total { p with reentrancyLocked := true })) =
    p.withdrawn learner record := by
  subst htotal
  unfold Storage.withdrawn
  split
  · simp [exitNonReentrant, setVouch, clearLearnerBaseline, setTotalVouchBoost, hlock]
  · simp [exitNonReentrant, setVouch, setTotalVouchBoost, hlock]

theorem removeIfPositive_ok {reputation n : Nat} {w w' : W}
    (hr : p.reputationContract = some reputation) :
    removeIfPositive c env p learner n w = .ok w' ↔
      if 0 < n then
        c.removeBoost (env.callFrom c.self []) reputation c.self learner n w = .ok w'
      else w = w' := by
  unfold removeIfPositive
  split
  · simp [removeReputationBoost, getReputationContract, hr, demand, ok_bind]
  · simp

theorem deactivate_ok :
    deactivate c env learner record s = .ok s' ↔
      ∃ reputation current, Withdraws c env learner record s s' reputation current := by
  simp only [deactivate, removeReputationBoostClamped, getReputationScore,
    getReputationContract, bind_ok, pure_ok, demand_ok, tryInvoke_ok, enterNonReentrant_ok]
  constructor
  · rintro ⟨_, ⟨hlock, rfl⟩, _, ⟨current, ⟨reputation, hr, hscore⟩, w, hw, rfl⟩, rfl⟩
    exact ⟨reputation, current, hlock, hr, hscore, hw, withdrawn_eq hlock rfl⟩
  · rintro ⟨reputation, current, hlock, hr, hscore, hremoved, hs'⟩
    refine ⟨_, ⟨hlock, rfl⟩, _, ⟨current, ⟨reputation, hr, hscore⟩, s'.world, hremoved, rfl⟩, ?_⟩
    rw [withdrawn_eq hlock rfl, ← hs']

theorem revokeVouch_ok :
    revokeVouch c env mentor learner s = .ok s' ↔
      env.auths mentor = true ∧ ∃ record, s.vouching.vouches mentor learner = some record ∧
        record.active = true ∧ deactivate c env learner record s = .ok s' := by
  simp only [revokeVouch, getVouch, bind_ok, requireAuth_ok, demand_ok, ensure_ok, exists_const]

theorem expireVouch_ok :
    expireVouch c env mentor learner s = .ok s' ↔
      ∃ record, s.vouching.vouches mentor learner = some record ∧
        (record.active = false ∧ s = s' ∨
          record.active = true ∧ record.expiry < env.timestamp ∧
            deactivate c env learner record s = .ok s') := by
  simp only [expireVouch, getVouch, bind_ok, demand_ok]
  refine exists_congr fun record => and_congr_right fun _ => ?_
  by_cases ha : record.active = false
  · simp [ha, pure_ok]
  · simp [ha, bind_ok]

/-! ## Every call -/

/-- What a successful call does. -/
inductive Effect (c : Clients W) (env : Env) (s : State W) : Call → State W → Prop
  | initialized {admin reputation : Address} {boost : Nat} (hadmin : s.vouching.admin = none)
      (hboost : 0 < boost) :
      Effect c env s (.initializeContract admin reputation boost)
        ⟨{ s.vouching with
          admin := some admin
          reputationContract := some reputation
          vouchBoost := some boost }, s.world⟩
  | mentorSet {admin mentor : Address} {verified : Bool} :
      Effect c env s (.setMentor admin mentor verified)
        ⟨{ s.vouching with
          mentors := Function.update s.vouching.mentors mentor verified
          reentrancyLocked := false }, s.world⟩
  | upgraded {newWasmHash : WasmHash} {version : Nat} :
      Effect c env s (.upgrade newWasmHash)
        ⟨{ s.vouching with version := version, reentrancyLocked := false }, s.world⟩
  | vouched {mentor learner : Address} {reputation boost : Nat} {baseline : Option Nat}
      {s' : State W} (h : Lends c env mentor learner s s' reputation boost baseline) :
      Effect c env s (.vouch mentor learner) s'
  | removed {mentor learner : Address} {record : VouchRecord} {reputation current : Nat}
      {call : Call} {s' : State W}
      (hcall : call = .revokeVouch mentor learner ∨ call = .expireVouch mentor learner)
      (hfound : s.vouching.vouches mentor learner = some record) (hactive : record.active = true)
      (h : Withdraws c env learner record s s' reputation current) :
      Effect c env s call s'
  | settled {mentor learner : Address} : Effect c env s (.expireVouch mentor learner) s

theorem exec_effect {call : Call} (h : exec c env call s = .ok s') : Effect c env s call s' := by
  cases call with
  | initializeContract admin reputation boost =>
    simp only [exec, onStorage, initializeContract, bind_ok, pure_ok, ensure_ok,
      exists_const] at h
    obtain ⟨_, ⟨_, -, hadmin, hboost, rfl⟩, rfl⟩ := h
    exact .initialized hadmin (Nat.pos_of_ne_zero hboost)
  | setMentor admin mentor verified =>
    simp only [exec, onStorage, setMentor, bind_ok, pure_ok, enterNonReentrant_ok] at h
    obtain ⟨_, ⟨_, -, _, -, _, ⟨-, rfl⟩, rfl⟩, rfl⟩ := h
    exact .mentorSet
  | upgrade newWasmHash =>
    simp only [exec, onStorage, upgrade, bind_ok, pure_ok, enterNonReentrant_ok] at h
    obtain ⟨_, ⟨_, -, _, -, _, ⟨-, rfl⟩, _, -, rfl⟩, rfl⟩ := h
    exact .upgraded
  | vouch mentor learner =>
    obtain ⟨_, _, _, hlends⟩ := vouch_spec h
    exact .vouched hlends
  | revokeVouch mentor learner =>
    obtain ⟨-, record, hfound, hactive, hd⟩ := revokeVouch_ok.mp h
    obtain ⟨_, _, hw⟩ := deactivate_ok.mp hd
    exact .removed (.inl rfl) hfound hactive hw
  | expireVouch mentor learner =>
    obtain ⟨record, hfound, ⟨-, rfl⟩ | ⟨hactive, -, hd⟩⟩ := expireVouch_ok.mp h
    · exact .settled
    · obtain ⟨_, _, hw⟩ := deactivate_ok.mp hd
      exact .removed (.inr rfl) hfound hactive hw

end StepFi.Vouching

import StepFi.Vouching.Store
import StepFi.Reputation.Contract

/-!
# Vouching on the real reputation contract

The vouching contract at `self` beside the reputation contract at `reputation`.
A step is a call on either, by anyone; a score moves by what the updaters ask
for and by the boosts lent and taken back.
-/

namespace StepFi.Vouching

open Lib

/-- What the vouching contract at `self` sees of the reputation contract. -/
def clients (self reputation : Address) : Clients Reputation.Storage where
  self := self
  getScore := fun address user w => do
    ensure (address = reputation) (.noContract address)
    return Reputation.getScore w user
  addBoost := fun env address updater user amount w => do
    ensure (address = reputation) (.noContract address)
    Reputation.addBoost env updater user amount w
  removeBoost := fun env address updater user amount w => do
    ensure (address = reputation) (.noContract address)
    Reputation.removeBoost env updater user amount w

namespace Scores

abbrev State := Vouching.State Reputation.Storage

/-- One event: a call on one of the two contracts, or a new boost for the vouches
to come, which no entry point sets but an installed migration may. -/
inductive Label where
  | vouching (env : Env) (call : Call)
  | reputation (env : Env) (call : Reputation.Call)
  | boostConfigured (boost : Nat)

def take (self reputation : Address) (s : State) : Label → Except Failure State
  | .vouching env call => exec (clients self reputation) env call s
  | .reputation env call => do
    let w ← Reputation.exec env call s.world
    return { s with world := w }
  | .boostConfigured boost => do
    ensure (boost ≠ 0) (.vouching .invalidBoost)
    return { s with vouching := { s.vouching with vouchBoost := some boost } }

def Step (self reputation : Address) (s : State) (l : Label) (s' : State) : Prop :=
  take self reputation s l = .ok s'

/-- Both contracts just deployed, with nothing stored. -/
def Deployed (s : State) : Prop := s.vouching = Storage.empty ∧ s.world = Reputation.Storage.empty

variable {self reputation address : Address} {env : Env} {s s' : State}
variable {mentor learner user : Address} {record : VouchRecord} {current : Nat}

theorem writeScore_self (user : Address) (w : Reputation.Storage) :
    Reputation.writeScore user (w.scores user) w = w := by
  simp [Reputation.writeScore]

/-- A vouch raises the learner's score by its boost. -/
theorem lends_world {boost : Nat} {baseline : Option Nat}
    (h : Lends (clients self reputation) env mentor learner s s' address boost baseline) :
    address = reputation ∧ s.world.scores learner + boost ≤ Reputation.maxScore ∧
      s'.world = Reputation.writeScore learner (s.world.scores learner + boost) s.world := by
  have hadd := h.added
  simp only [clients, Reputation.addBoost, bind_ok, ensure_ok, exists_const,
    Reputation.raise_ok] at hadd
  obtain ⟨haddress, -, -, -, hle, hworld⟩ := hadd
  exact ⟨haddress, hle, hworld⟩

/-- The removal of a vouch lowers the learner's score by the removable part. -/
theorem withdraws_world (hb : s.world.Bounded)
    (h : Withdraws (clients self reputation) env learner record s s' address current) :
    current = s.world.scores learner ∧
      s'.world = Reputation.writeScore learner
        (current - s.vouching.removable learner record current) s.world := by
  have hscore := h.score
  simp only [clients, bind_ok, ensure_ok, exists_const, pure_ok, Reputation.getScore] at hscore
  obtain ⟨-, rfl⟩ := hscore
  refine ⟨rfl, ?_⟩
  have hremoved := (removeIfPositive_ok h.contract).mp h.removed
  split at hremoved
  · simp only [clients, Reputation.removeBoost, bind_ok, ensure_ok, exists_const,
      Reputation.lower_ok (hb.score_lt learner)] at hremoved
    obtain ⟨-, -, -, -, -, hworld⟩ := hremoved
    exact hworld
  · rename_i hzero
    rw [Nat.eq_zero_of_not_pos hzero, Nat.sub_zero, writeScore_self, hremoved]

/-! ## Reachable states -/

/-- The vouches are all on the reputation contract at `reputation`. -/
structure Anchored (reputation : Address) (p : Storage) : Prop where
  contract : ∀ mentor learner record, p.vouches mentor learner = some record →
    p.reputationContract = some reputation
  admin : p.reputationContract.isSome = true → p.admin.isSome = true

structure Sound (reputation : Address) (s : State) : Prop where
  store : s.vouching.Sound
  anchored : Anchored reputation s.vouching
  bounded : s.world.Bounded

theorem Anchored.effect {call : Call} (ha : Anchored reputation s.vouching)
    (h : Effect (clients self reputation) env s call s') : Anchored reputation s'.vouching := by
  cases h with
  | initialized hadmin hboost =>
    refine ⟨fun mentor learner record hfound => ?_, fun _ => rfl⟩
    -- a record would name a reputation contract, and with it an admin
    have hsome := ha.admin (by rw [ha.contract mentor learner record hfound]; rfl)
    simp [hadmin] at hsome
  | mentorSet => exact ⟨ha.contract, ha.admin⟩
  | upgraded => exact ⟨ha.contract, ha.admin⟩
  | settled => exact ha
  | vouched h =>
    obtain ⟨rfl, -, -⟩ := lends_world h
    rw [h.lent]
    exact ⟨fun _ _ _ _ => h.contract, ha.admin⟩
  | removed hcall hfound hactive h =>
    rw [h.withdrawn]
    exact ⟨fun _ _ _ _ => ha.contract _ _ _ hfound, ha.admin⟩

theorem bounded_effect {call : Call} (hb : s.world.Bounded)
    (h : Effect (clients self reputation) env s call s') : s'.world.Bounded := by
  cases h with
  | initialized => exact hb
  | mentorSet => exact hb
  | upgraded => exact hb
  | settled => exact hb
  | vouched h =>
    obtain ⟨-, hle, hworld⟩ := lends_world h
    rw [hworld]
    exact hb.write hle
  | removed hcall hfound hactive h =>
    obtain ⟨rfl, hworld⟩ := withdraws_world hb h
    rw [hworld]
    exact hb.write (Nat.le_trans (Nat.sub_le ..) (hb.scores_le _))

theorem Step.sound {l : Label} (hs : Sound reputation s) (h : Step self reputation s l s') :
    Sound reputation s' := by
  cases l with
  | vouching env call =>
    have he := exec_effect h
    exact ⟨he.sound hs.store, hs.anchored.effect he, bounded_effect hs.bounded he⟩
  | reputation env call =>
    simp only [Step, take, bind_ok, pure_ok] at h
    obtain ⟨w, hw, rfl⟩ := h
    exact ⟨hs.store, hs.anchored, Reputation.exec_bounded hs.bounded hw⟩
  | boostConfigured boost =>
    simp only [Step, take, bind_ok, pure_ok, ensure_ok, exists_const] at h
    obtain ⟨hboost, rfl⟩ := h
    refine ⟨⟨fun _ => (hs.store.agrees _).of_same rfl rfl rfl rfl, hs.store.keyed, ?_,
      hs.store.unlocked⟩, ⟨hs.anchored.contract, hs.anchored.admin⟩, hs.bounded⟩
    intro b hb
    obtain rfl := Option.some.inj hb
    exact Nat.pos_of_ne_zero hboost

theorem Sound.deployed (h : Deployed s) : Sound reputation s := by
  obtain ⟨hp, hw⟩ := h
  refine ⟨hp ▸ Storage.Sound.empty, ?_, ?_⟩
  · rw [hp]
    exact ⟨fun _ _ _ h => by simp [Storage.empty] at h, fun h => by simp [Storage.empty] at h⟩
  · rw [hw]
    exact ⟨fun _ => by simp [Reputation.Storage.empty], rfl⟩

theorem sound_of_reachable (h : Reachable Deployed (Step self reputation) s) :
    Sound reputation s :=
  h.invariant (fun _ h0 => Sound.deployed h0) (fun _ _ _ _ hs hstep => hstep.sound hs)

/-! ## Removal -/

/-- The removal of an active vouch goes through as long as the contract may
update scores. -/
theorem deactivate_succeeds (env : Env) (hs : Sound reputation s)
    (hupd : s.world.updaters self = true)
    (hfound : s.vouching.vouches mentor learner = some record) :
    ∃ s', deactivate (clients self reputation) env learner record s = .ok s' := by
  have hr := hs.anchored.contract mentor learner record hfound
  have hremoved : ∃ w, removeIfPositive (clients self reputation) env s.vouching learner
      (s.vouching.removable learner record (s.world.scores learner)) s.world = .ok w := by
    simp only [removeIfPositive_ok hr]
    split
    · simp only [clients, Reputation.removeBoost, bind_ok, ensure_ok, exists_const,
        Reputation.lower_ok (hs.bounded.score_lt learner), Env.callFrom_auths, hupd,
        hs.bounded.unlocked, true_and]
      exact ⟨_, s.vouching.removable_le learner record _, rfl⟩
    · exact ⟨_, rfl⟩
  obtain ⟨w, hw⟩ := hremoved
  refine ⟨⟨s.vouching.withdrawn learner record, w⟩, deactivate_ok.mpr ⟨reputation,
    s.world.scores learner, hs.store.unlocked, hr, ?_, hw, rfl⟩⟩
  simp [clients, ensure, ok_bind, Reputation.getScore, Pure.pure, Except.pure]

/-- From every reachable state the mentor can revoke an active vouch and anyone
can expire one whose time is over, and every score is within its bounds. -/
theorem removal_never_blocked (h : Reachable Deployed (Step self reputation) s) :
    (∀ user, s.world.scores user ≤ Reputation.maxScore) ∧
    (s.world.updaters self = true → ∀ mentor learner record,
      s.vouching.vouches mentor learner = some record → record.active = true →
      (∀ env : Env, env.auths mentor = true → ∃ s',
        Step self reputation s (.vouching env (.revokeVouch mentor learner)) s') ∧
      ∀ env : Env, record.ts + vouchDuration < env.timestamp → ∃ s',
        Step self reputation s (.vouching env (.expireVouch mentor learner)) s') := by
  have hs := sound_of_reachable h
  refine ⟨hs.bounded.scores_le, fun hupd mentor learner record hfound hactive => ⟨?_, ?_⟩⟩
  · intro env hauth
    obtain ⟨s', hs'⟩ := deactivate_succeeds env hs hupd hfound
    exact ⟨s', revokeVouch_ok.mpr ⟨hauth, record, hfound, hactive, hs'⟩⟩
  · intro env htime
    obtain ⟨s', hs'⟩ := deactivate_succeeds env hs hupd hfound
    have hexpired : record.expiry < env.timestamp := by
      unfold VouchRecord.expiry
      omega
    exact ⟨s', expireVouch_ok.mpr ⟨record, hfound, .inr ⟨hactive, hexpired, hs'⟩⟩⟩

/-- Mentor `21` vouches for learner `30`, whose score another updater then cuts
from `60` to `45`. -/
def sampleLabels : List Label :=
  [.reputation (Env.signedBy [10] 50) (.initializeContract 10),
    .reputation (Env.signedBy [10] 50) (.setUpdater 10 7 true),
    .reputation (Env.signedBy [10] 50) (.setUpdater 10 8 true),
    .vouching (Env.signedBy [10] 50) (.initializeContract 10 3 10),
    .vouching (Env.signedBy [10] 60) (.setMentor 10 21 true),
    .reputation (Env.signedBy [8] 70) (.increaseScore 8 30 50),
    .vouching (Env.signedBy [21] 100) (.vouch 21 30),
    .reputation (Env.signedBy [8] 110) (.decreaseScore 8 30 15)]

def sampleStart : State := ⟨Storage.empty, Reputation.Storage.empty⟩

theorem removal_never_blocked_sample : ∃ s : State, s.world.scores 30 = 45 ∧
    (∃ s', Step 7 3 s (.vouching (Env.signedBy [21] 120) (.revokeVouch 21 30)) s') ∧
    ∃ s', Step 7 3 s (.vouching (Env.signedBy [] 2592101) (.expireVouch 21 30)) s' := by
  have hrun : (replay (take 7 3) sampleStart sampleLabels).toOption.map
      (fun r => (r.2.world.scores 30, r.2.world.updaters 7, r.2.vouching.vouches 21 30)) =
        some (45, true, some ⟨21, 30, 100, 10, true⟩) := by decide +kernel
  obtain ⟨_, s, hreach, hs⟩ :=
    Reachable.of_replay (I := Deployed) (R := Step 7 3) hrun ⟨rfl, rfl⟩ fun _ _ _ h => h
  obtain ⟨hscore, hupd, hfound⟩ : s.world.scores 30 = 45 ∧ s.world.updaters 7 = true ∧
      s.vouching.vouches 21 30 = some ⟨21, 30, 100, 10, true⟩ := by simpa using hs
  obtain ⟨hrevoke, hexpire⟩ := (removal_never_blocked hreach).2 hupd 21 30 _ hfound rfl
  exact ⟨s, hscore, hrevoke _ (by decide), hexpire _ (by decide)⟩

end Scores

end StepFi.Vouching

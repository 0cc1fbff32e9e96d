import StepFi.Reputation.Contract
import StepFi.Lib.EventLog

/-!
# The score log

What each call publishes (`emitted`), and an auditor who sees nothing else and
checks each event against those before it. The scores of a user form a chain from
zero, each event starting where the last one ended, and no upgrade comes before its
time. The log of every run passes, and leaves the auditor with every score
(`log_tells_scores`).
-/

namespace StepFi.Reputation

open Lib

/-! ## Events -/

/-- The `reason` of a score event. -/
inductive Reason where
  | increase | decrease | set | boost | unboost
  deriving DecidableEq

/-- The events, each with its topics and then its data. -/
inductive Emitted where
  | scoreChanged (user : Address) (oldScore newScore : Nat) (reason : Reason)
  | updaterChanged (updater : Address) (allowed : Bool)
  | adminChanged (oldAdmin newAdmin : Address)
  | upgradeProposed (wasmHash : WasmHash) (proposedAt unlockAt : Nat)
  | contractUpgraded (oldVersion newVersion timestamp : Nat)
  deriving DecidableEq

def scoreEvents (user : Address) (reason : Reason) (p : Storage) (x : Except Failure Storage) :
    Except Failure (List Emitted) := do
  let p' ← x
  return [.scoreChanged user (p.scores user) (p'.scores user) reason]

def upgradeEvents (env : Env) (newWasmHash : WasmHash) (p : Storage) :
    Except Failure (List Emitted) := do
  let p' ← executeUpgrade env newWasmHash p
  return [.contractUpgraded p.version p'.version env.timestamp]

/-- What a call publishes; one that fails publishes nothing. -/
def emitted (env : Env) (call : Call) (p : Storage) : Except Failure (List Emitted) :=
  match call with
  | .increaseScore updater user amount =>
    scoreEvents user .increase p (increaseScore env updater user amount p)
  | .decreaseScore updater user amount =>
    scoreEvents user .decrease p (decreaseScore env updater user amount p)
  | .setScore updater user newScore =>
    scoreEvents user .set p (setScore env updater user newScore p)
  | .addBoost updater user amount =>
    scoreEvents user .boost p (addBoost env updater user amount p)
  | .removeBoost updater user amount =>
    scoreEvents user .unboost p (removeBoost env updater user amount p)
  | .setUpdater admin updater allowed => do
    let _ ← setUpdater env admin updater allowed p
    return [.updaterChanged updater allowed]
  | .initializeContract admin => do
    let _ ← initializeContract env admin p
    return [.adminChanged admin admin]
  | .setAdmin newAdmin => do
    let _ ← setAdmin env newAdmin p
    let oldAdmin ← getAdmin p
    return [.adminChanged oldAdmin newAdmin]
  | .setParametersContract _ => .ok []
  | .proposeUpgrade getParameters newWasmHash => do
    let p' ← proposeUpgrade getParameters env newWasmHash p
    let pending ← demand p'.pendingUpgrade upgradeErrors.notProposed
    return [.upgradeProposed newWasmHash pending.proposedAt pending.unlockAt]
  | .executeUpgrade newWasmHash => upgradeEvents env newWasmHash p
  | .upgrade newWasmHash => upgradeEvents env newWasmHash p

def publishes (p : Storage) (l : Label) : List Emitted :=
  (emitted l.env l.call p).toOption.getD []

/-! ## The auditor -/

/-- What an auditor keeps; of an upgrade, the time from which it can be executed. -/
structure Seen where
  admin : Option Address
  updaters : Address → Bool
  scores : Address → Nat
  unlockAt : Option Nat
  version : Nat

def Storage.seen (p : Storage) : Seen where
  admin := p.admin
  updaters := p.updaters
  scores := p.scores
  unlockAt := p.pendingUpgrade.map PendingUpgrade.unlockAt
  version := p.version

/-- The direction a reason stands for. -/
def Reason.allows (oldScore newScore : Nat) : Reason → Bool
  | .increase | .boost => decide (oldScore ≤ newScore)
  | .decrease | .unboost => decide (newScore ≤ oldScore)
  | .set => true

/-- What an event adds to what is known, if it agrees with that. -/
def audit (v : Seen) : Emitted → Option Seen
  | .scoreChanged user oldScore newScore reason =>
    if oldScore = v.scores user ∧ newScore ≤ maxScore ∧ reason.allows oldScore newScore = true then
      some { v with scores := Function.update v.scores user newScore }
    else none
  | .updaterChanged updater allowed =>
    some { v with updaters := Function.update v.updaters updater allowed }
  | .adminChanged oldAdmin newAdmin =>
    if v.admin = some oldAdmin ∨ v.admin = none ∧ oldAdmin = newAdmin then
      some { v with admin := some newAdmin }
    else none
  | .upgradeProposed _ proposedAt unlockAt =>
    if proposedAt ≤ unlockAt then some { v with unlockAt := some unlockAt } else none
  | .contractUpgraded oldVersion newVersion timestamp =>
    if oldVersion = v.version ∧ newVersion = oldVersion + 1 ∧
        ∃ unlockAt ∈ v.unlockAt, unlockAt ≤ timestamp then
      some { v with version := newVersion, unlockAt := none }
    else none

/-- An auditor who found a fault reads no further. -/
def read (v : Option Seen) (e : Emitted) : Option Seen := v.bind fun v => audit v e

/-- What the log of a run says. -/
def audited (tr : List (Storage × Label)) : Option Seen :=
  (logged publishes tr).foldl read (some Storage.empty.seen)

/-! ## A call read off its events -/

variable {env : Env} {call : Call} {p p' : Storage} {updater user : Address} {amount : Nat}

/-- A score written, in the direction of its reason. -/
theorem score_seen {score : Nat} {reason : Reason} (hle : score ≤ maxScore)
    (hallows : reason.allows (p.scores user) score = true) :
    (((scoreEvents user reason p (.ok (writeScore user score p))).toOption.getD []).foldl read
      (some p.seen)) = some (writeScore user score p).seen := by
  have hpasses : p.scores user = p.seen.scores user ∧ score ≤ maxScore ∧
      reason.allows (p.scores user) score = true := ⟨rfl, hle, hallows⟩
  show audit p.seen (.scoreChanged user (p.scores user) ((writeScore user score p).scores user)
    reason) = _
  rw [writeScore_same]
  exact if_pos hpasses

theorem raise_seen {reason : Reason} (h : raise env updater user amount p = .ok p')
    (hreason : reason = .increase ∨ reason = .boost) :
    (((scoreEvents user reason p (.ok p')).toOption.getD []).foldl read (some p.seen)) =
      some p'.seen := by
  obtain ⟨-, -, -, hle, rfl⟩ := raise_ok.mp h
  refine score_seen hle ?_
  rcases hreason with rfl | rfl <;> simp [Reason.allows]

theorem lower_seen {reason : Reason} (hb : p.Bounded)
    (h : lower env updater user amount p = .ok p')
    (hreason : reason = .decrease ∨ reason = .unboost) :
    (((scoreEvents user reason p (.ok p')).toOption.getD []).foldl read (some p.seen)) =
      some p'.seen := by
  obtain ⟨-, -, -, -, rfl⟩ := (lower_ok (hb.score_lt user)).mp h
  have hle := hb.scores_le user
  refine score_seen (by omega) ?_
  rcases hreason with rfl | rfl <;> simp [Reason.allows]

theorem upgrade_seen {newWasmHash : WasmHash} (h : executeUpgrade env newWasmHash p = .ok p') :
    (((upgradeEvents env newWasmHash p).toOption.getD []).foldl read (some p.seen)) =
      some p'.seen := by
  have hupgrade := h
  simp only [executeUpgrade, bind_ok, pure_ok, demand_ok, ensure_ok, exists_const,
    enterNonReentrant_ok, checkedU32_ok] at hupgrade
  obtain ⟨_, -, _, -, pending, hpending, -, htime, _, ⟨-, rfl⟩, version, ⟨-, hversion⟩, _, -,
    rfl⟩ := hupgrade
  have hnext : version = p.version + 1 := by
    dsimp only at hversion
    omega
  have hpasses : p.version = p.seen.version ∧ version = p.version + 1 ∧
      ∃ unlockAt ∈ p.seen.unlockAt, unlockAt ≤ env.timestamp := by
    refine ⟨rfl, hnext, pending.unlockAt, ?_, htime⟩
    simp [Storage.seen, hpending]
  simp only [upgradeEvents, h]
  exact if_pos hpasses

/-- The events of a call carry the auditor over it. -/
theorem exec_seen (hb : p.Bounded) (h : exec env call p = .ok p') :
    ((emitted env call p).toOption.getD []).foldl read (some p.seen) = some p'.seen := by
  cases call with
  | increaseScore updater user amount =>
    have h₁ : increaseScore env updater user amount p = .ok p' := h
    simp only [emitted, h₁]
    exact raise_seen h₁ (.inl rfl)
  | addBoost updater user amount =>
    have h₁ : addBoost env updater user amount p = .ok p' := h
    simp only [emitted, h₁]
    exact raise_seen h₁ (.inr rfl)
  | decreaseScore updater user amount =>
    have h₁ : decreaseScore env updater user amount p = .ok p' := h
    simp only [emitted, h₁]
    exact lower_seen hb h₁ (.inl rfl)
  | removeBoost updater user amount =>
    have h₁ : removeBoost env updater user amount p = .ok p' := h
    simp only [emitted, h₁]
    exact lower_seen hb h₁ (.inr rfl)
  | setScore updater user newScore =>
    have h₁ : setScore env updater user newScore p = .ok p' := h
    simp only [emitted, h₁]
    simp only [setScore, bind_ok, pure_ok, ensure_ok, exists_const, enterNonReentrant_ok] at h₁
    obtain ⟨_, -, _, -, hle, _, ⟨-, rfl⟩, rfl⟩ := h₁
    have hwritten : ((scoreEvents user .set p (.ok (writeScore user newScore p))).toOption.getD
        []).foldl read (some p.seen) = some (writeScore user newScore p).seen := score_seen hle rfl
    exact hwritten
  | setUpdater admin updater allowed =>
    have h₁ : setUpdater env admin updater allowed p = .ok p' := h
    simp only [emitted, h₁]
    simp only [setUpdater, bind_ok, pure_ok, enterNonReentrant_ok] at h₁
    obtain ⟨_, -, _, -, _, ⟨-, rfl⟩, rfl⟩ := h₁
    rfl
  | initializeContract admin =>
    have h₁ : initializeContract env admin p = .ok p' := h
    simp only [emitted, h₁]
    simp only [initializeContract, bind_ok, pure_ok, ensure_ok, exists_const,
      enterNonReentrant_ok] at h₁
    obtain ⟨_, -, hnone, _, ⟨-, rfl⟩, rfl⟩ := h₁
    have hpasses : p.seen.admin = some admin ∨ p.seen.admin = none ∧ admin = admin :=
      .inr ⟨hnone, rfl⟩
    exact if_pos hpasses
  | setAdmin newAdmin =>
    have h₁ : setAdmin env newAdmin p = .ok p' := h
    simp only [emitted, h₁]
    simp only [setAdmin, bind_ok, pure_ok, demand_ok, enterNonReentrant_ok] at h₁
    obtain ⟨oldAdmin, hadmin, _, -, _, -, _, ⟨-, rfl⟩, rfl⟩ := h₁
    have hpasses : p.seen.admin = some oldAdmin ∨ p.seen.admin = none ∧ oldAdmin = newAdmin :=
      .inl hadmin
    have hstored : getAdmin p = .ok oldAdmin := demand_ok.mpr hadmin
    rw [ok_bind, hstored]
    exact if_pos hpasses
  | setParametersContract address =>
    simp only [exec, setParametersContract, bind_ok, pure_ok] at h
    obtain ⟨_, -, _, -, rfl⟩ := h
    rfl
  | proposeUpgrade getParameters newWasmHash =>
    have h₁ : proposeUpgrade getParameters env newWasmHash p = .ok p' := h
    simp only [emitted, h₁]
    simp only [proposeUpgrade, bind_ok, pure_ok, PendingUpgrade.propose_ok] at h₁
    obtain ⟨_, -, _, -, delay, -, _, ⟨-, rfl⟩, rfl⟩ := h₁
    have hpasses : env.timestamp ≤ env.timestamp + delay := Nat.le_add_right ..
    exact if_pos hpasses
  | executeUpgrade newWasmHash => exact upgrade_seen h
  | upgrade newWasmHash => exact upgrade_seen h

theorem bounded_of_reachable (h : Reachable Deployed Step p) : p.Bounded :=
  h.invariant (fun _ h0 => h0 ▸ ⟨fun _ => Nat.zero_le _, rfl⟩)
    fun _ _ _ _ hb hs => exec_bounded hb hs

theorem observes : Observes Deployed Step publishes read (some Storage.empty.seen)
    fun v p => v = some p.seen where
  start := by
    intro p h0
    rw [h0]
  step := by
    rintro p l p' _ hreach rfl hs
    exact exec_seen (bounded_of_reachable hreach) hs

/-- The log of every run passes the audit, and says exactly what every score is, who
may update scores, who the administrator is, the version, and until when a proposed
upgrade has to wait. -/
theorem log_tells_scores {p₀ : Storage} {tr : List (Storage × Label)} (h : Run Step p₀ tr p)
    (h0 : Deployed p₀) : audited tr = some p.seen :=
  observes.run h0 h

/-- Updater `3` sets, raises and lowers the score of user `21`, and `4` boosts it. -/
theorem log_tells_scores_sample : ∃ (p : Storage) (tr : List (Storage × Label)),
    audited tr = some p.seen ∧ p.seen.scores 21 = 65 ∧
    logged publishes tr = [.adminChanged 10 10, .updaterChanged 3 true, .updaterChanged 4 true,
      .scoreChanged 21 0 60 .set, .scoreChanged 21 60 75 .increase,
      .scoreChanged 21 75 85 .boost, .scoreChanged 21 85 65 .decrease] := by
  have hreplay : (replay take Storage.empty
      [⟨Env.signedBy [10] 50, .initializeContract 10⟩,
        ⟨Env.signedBy [10] 60, .setUpdater 10 3 true⟩,
        ⟨Env.signedBy [10] 60, .setUpdater 10 4 true⟩,
        ⟨Env.signedBy [3] 70, .setScore 3 21 60⟩,
        ⟨Env.signedBy [3] 80, .increaseScore 3 21 15⟩,
        ⟨Env.signedBy [4] 90, .addBoost 4 21 10⟩,
        ⟨Env.signedBy [3] 100, .decreaseScore 3 21 20⟩]).toOption.map
      (fun r => (r.2.seen.scores 21, logged publishes r.1)) = some (65,
        [.adminChanged 10 10, .updaterChanged 3 true, .updaterChanged 4 true,
          .scoreChanged 21 0 60 .set, .scoreChanged 21 60 75 .increase,
          .scoreChanged 21 75 85 .boost, .scoreChanged 21 85 65 .decrease]) := by decide +kernel
  obtain ⟨tr, p, hr, hobs⟩ := replay_observed hreplay
  obtain ⟨hscore, hlog⟩ := Prod.mk.injEq .. ▸ hobs
  have hrun : Run Step Storage.empty tr p := Run.of_replay (fun _ _ _ _ h => h) hr
  exact ⟨p, tr, log_tells_scores hrun rfl, hscore, hlog⟩

end StepFi.Reputation

import StepFi.Upgrade
import StepFi.Encoding

/-!
# The reputation contract

Scores between `0` and `MAX_SCORE`, moved by registered updaters. The scores
never leave the bounds (`exec_bounded`), and an update that would is an error,
not a clamp.
-/

namespace StepFi.Reputation

open Lib

/-- The highest score. -/
abbrev maxScore : Nat := 100

/-- The contract's keys; a user never written has score `0`. -/
structure Storage where
  admin : Option Address
  updaters : Address → Bool
  scores : Address → Nat
  reentrancyLocked : Bool
  parametersContract : Option Address
  pendingUpgrade : Option PendingUpgrade
  version : Nat

/-- Storage as deployed: every key missing. -/
def Storage.empty : Storage where
  admin := none
  updaters := fun _ => false
  scores := fun _ => 0
  reentrancyLocked := false
  parametersContract := none
  pendingUpgrade := none
  version := 1

/-- `checked_add` with the contract's `Overflow`. -/
def addU32 (a b : Nat) : Except Failure Nat := checkedU32 (.reputation .overflow) (a + b)

/-- `checked_sub` with the contract's `Underflow`. -/
def subU32 (a b : Nat) : Except Failure Nat := checkedU32 (.reputation .underflow) (a - b)

/-- The caller is the stored admin; that it signed is asked elsewhere. -/
def requireAdmin (p : Storage) (caller : Address) : Except Failure Unit := do
  let admin ← demand p.admin (.reputation .notInitialized)
  ensure (admin = caller) (.reputation .notAdmin)

/-- The caller is one the admin allows to move scores. -/
def requireUpdater (p : Storage) (addr : Address) : Except Failure Unit :=
  ensure (p.updaters addr = true) (.reputation .notUpdater)

/-- Take the lock, or `ReentrancyDetected`. -/
def enterNonReentrant (p : Storage) : Except Failure Storage := do
  ensure (p.reentrancyLocked = false) (.reputation .reentrancyDetected)
  return { p with reentrancyLocked := true }

/-- Release the lock. -/
def exitNonReentrant (p : Storage) : Storage := { p with reentrancyLocked := false }

/-- The score of a user. -/
def getScore (p : Storage) (user : Address) : Nat := p.scores user

/-- Store a score, unchecked. -/
def writeScore (user : Address) (score : Nat) (p : Storage) : Storage :=
  { p with scores := Function.update p.scores user score }

/-! ## Score updates -/

/-- The body `increase_score` and `add_boost` share. -/
def raise (env : Env) (updater user : Address) (amount : Nat) (p : Storage) :
    Except Failure Storage := do
  requireAuth env updater
  requireUpdater p updater
  let p ← enterNonReentrant p
  let newScore ← addU32 (p.scores user) amount
  ensure (newScore ≤ maxScore) (.reputation .overflow)
  return exitNonReentrant (writeScore user newScore p)

/-- The body `decrease_score` and `remove_boost` share. -/
def lower (env : Env) (updater user : Address) (amount : Nat) (p : Storage) :
    Except Failure Storage := do
  requireAuth env updater
  requireUpdater p updater
  let p ← enterNonReentrant p
  let newScore ← subU32 (p.scores user) amount
  return exitNonReentrant (writeScore user newScore p)

/-- An updater raises a score; past the maximum it is an error. -/
def increaseScore (env : Env) (updater user : Address) (amount : Nat) (p : Storage) :
    Except Failure Storage := raise env updater user amount p

/-- An updater lowers a score; below zero it is an error. -/
def decreaseScore (env : Env) (updater user : Address) (amount : Nat) (p : Storage) :
    Except Failure Storage := lower env updater user amount p

/-- What a vouch adds to a score. -/
def addBoost (env : Env) (updater user : Address) (amount : Nat) (p : Storage) :
    Except Failure Storage := raise env updater user amount p

/-- What the end of a vouch takes from a score. -/
def removeBoost (env : Env) (updater user : Address) (amount : Nat) (p : Storage) :
    Except Failure Storage := lower env updater user amount p

/-- An updater writes a score within the bounds. -/
def setScore (env : Env) (updater user : Address) (newScore : Nat) (p : Storage) :
    Except Failure Storage := do
  requireAuth env updater
  requireUpdater p updater
  ensure (newScore ≤ maxScore) (.reputation .outOfBounds)
  let p ← enterNonReentrant p
  return exitNonReentrant (writeScore user newScore p)

/-! ## Administration -/

/-- The admin allows or forbids an updater. -/
def setUpdater (env : Env) (admin updater : Address) (allowed : Bool) (p : Storage) :
    Except Failure Storage := do
  requireAuth env admin
  requireAdmin p admin
  let p ← enterNonReentrant p
  return exitNonReentrant { p with updaters := Function.update p.updaters updater allowed }

/-- Set the admin, once. -/
def initializeContract (env : Env) (admin : Address) (p : Storage) : Except Failure Storage := do
  requireAuth env admin
  ensure (p.admin = none) (.reputation .alreadyInitialized)
  let p ← enterNonReentrant p
  return exitNonReentrant { p with admin := some admin }

/-- The admin hands over to another. -/
def setAdmin (env : Env) (newAdmin : Address) (p : Storage) : Except Failure Storage := do
  let oldAdmin ← demand p.admin (.reputation .notInitialized)
  requireAuth env oldAdmin
  requireAdmin p oldAdmin
  let p ← enterNonReentrant p
  return exitNonReentrant { p with admin := some newAdmin }

/-! ## Upgrades -/

/-- The parameters as the reputation contract decodes them. -/
structure ProtocolParameters where
  minGuaranteePercent : Int
  minReputationThreshold : Nat
  fullRepaymentReward : Nat
  defaultPenalty : Nat
  largeLoanThreshold : Int
  largeLoanDefaultPenalty : Nat
  baseInterestBps : Nat
  gracePeriodSeconds : Nat
  upgradeDelaySeconds : Nat

/-- The nine fields of this copy of the struct: `late_fee_bps` is not among them. -/
def ProtocolParameters.fieldNames : List String :=
  ["min_guarantee_percent", "min_reputation_threshold", "full_repayment_reward",
    "default_penalty", "large_loan_threshold", "large_loan_default_penalty", "base_interest_bps",
    "grace_period_seconds", "upgrade_delay_seconds"]

/-- The reply as the host unpacks it. -/
def ProtocolParameters.decode (r : Fields) : Reply ProtocolParameters :=
  r.unpack fieldNames do
    return {
      minGuaranteePercent := ← r.i128 "min_guarantee_percent"
      minReputationThreshold := ← r.u32 "min_reputation_threshold"
      fullRepaymentReward := ← r.u32 "full_repayment_reward"
      defaultPenalty := ← r.u32 "default_penalty"
      largeLoanThreshold := ← r.i128 "large_loan_threshold"
      largeLoanDefaultPenalty := ← r.u32 "large_loan_default_penalty"
      baseInterestBps := ← r.u32 "base_interest_bps"
      gracePeriodSeconds := ← r.u64 "grace_period_seconds"
      upgradeDelaySeconds := ← r.u64 "upgrade_delay_seconds" }

/-- The contract's own errors for the shared upgrade steps. -/
def upgradeErrors : UpgradeErrors where
  overflow := .reputation .overflow
  notProposed := .reputation .upgradeNotProposed
  hashMismatch := .reputation .upgradeHashMismatch
  timelockNotMet := .reputation .upgradeTimelockNotMet

def getAdmin (p : Storage) : Except Failure Address := demand p.admin (.reputation .notInitialized)

/-- The contract the upgrade delay is read from. -/
def setParametersContract (env : Env) (address : Address) (p : Storage) :
    Except Failure Storage := do
  let admin ← getAdmin p
  requireAuth env admin
  return { p with parametersContract := some address }

/-- `getParameters` is the reply of the contract at an address. -/
def getUpgradeDelaySeconds (getParameters : Address → Reply ProtocolParameters) (p : Storage) :
    Except Failure Nat :=
  readUpgradeDelay ProtocolParameters.upgradeDelaySeconds getParameters p.parametersContract

/-- The admin proposes code to swap in when the delay read here has passed. -/
def proposeUpgrade (getParameters : Address → Reply ProtocolParameters) (env : Env)
    (newWasmHash : WasmHash) (p : Storage) : Except Failure Storage := do
  let admin ← getAdmin p
  requireAuth env admin
  let delay ← getUpgradeDelaySeconds getParameters p
  let pending ← PendingUpgrade.propose upgradeErrors env delay newWasmHash
  return { p with pendingUpgrade := some pending }

/-- The sibling contracts' checks in their order, with the lock taken before the
version is raised. -/
def executeUpgrade (env : Env) (newWasmHash : WasmHash) (p : Storage) :
    Except Failure Storage := do
  let admin ← getAdmin p
  requireAuth env admin
  let pending ← demand p.pendingUpgrade upgradeErrors.notProposed
  ensure (pending.wasmHash = newWasmHash) upgradeErrors.hashMismatch
  ensure (pending.unlockAt ≤ env.timestamp) upgradeErrors.timelockNotMet
  let p ← enterNonReentrant p
  let newVersion ← checkedU32 upgradeErrors.overflow (p.version + 1)
  updateCurrentContractWasm env newWasmHash
  return exitNonReentrant { p with version := newVersion, pendingUpgrade := none }

/-- The same call under its other name. -/
def upgrade (env : Env) (newWasmHash : WasmHash) (p : Storage) : Except Failure Storage :=
  executeUpgrade env newWasmHash p

/-! ## Calls -/

/-- The entry points that write. -/
inductive Call where
  | initializeContract (admin : Address)
  | setAdmin (newAdmin : Address)
  | setUpdater (admin updater : Address) (allowed : Bool)
  | increaseScore (updater user : Address) (amount : Nat)
  | decreaseScore (updater user : Address) (amount : Nat)
  | addBoost (updater user : Address) (amount : Nat)
  | removeBoost (updater user : Address) (amount : Nat)
  | setScore (updater user : Address) (newScore : Nat)
  | setParametersContract (address : Address)
  | proposeUpgrade (getParameters : Address → Reply ProtocolParameters) (newWasmHash : WasmHash)
  | executeUpgrade (newWasmHash : WasmHash)
  | upgrade (newWasmHash : WasmHash)

/-- What a call does to the storage. -/
def exec (env : Env) (call : Call) (p : Storage) : Except Failure Storage :=
  match call with
  | .initializeContract admin => initializeContract env admin p
  | .setAdmin newAdmin => setAdmin env newAdmin p
  | .setUpdater admin updater allowed => setUpdater env admin updater allowed p
  | .increaseScore updater user amount => increaseScore env updater user amount p
  | .decreaseScore updater user amount => decreaseScore env updater user amount p
  | .addBoost updater user amount => addBoost env updater user amount p
  | .removeBoost updater user amount => removeBoost env updater user amount p
  | .setScore updater user newScore => setScore env updater user newScore p
  | .setParametersContract address => setParametersContract env address p
  | .proposeUpgrade getParameters newWasmHash => proposeUpgrade getParameters env newWasmHash p
  | .executeUpgrade newWasmHash => executeUpgrade env newWasmHash p
  | .upgrade newWasmHash => upgrade env newWasmHash p

/-- One event: a call by anyone, at any ledger time. -/
structure Label where
  env : Env
  call : Call

def take (p : Storage) (l : Label) : Except Failure Storage := exec l.env l.call p

/-- One successful call. -/
def Step (p : Storage) (l : Label) (p' : Storage) : Prop := take p l = .ok p'

/-- The contract just deployed, with nothing stored. -/
def Deployed (p : Storage) : Prop := p = Storage.empty

/-! ## What the calls do -/

variable {env : Env} {p p' : Storage} {updater user : Address} {amount : Nat}

@[simp] theorem enterNonReentrant_ok :
    enterNonReentrant p = .ok p' ↔
      p.reentrancyLocked = false ∧ { p with reentrancyLocked := true } = p' := by
  simp only [enterNonReentrant, bind_ok, pure_ok, ensure_ok, exists_const]

theorem raise_ok :
    raise env updater user amount p = .ok p' ↔
      env.auths updater = true ∧ p.updaters updater = true ∧ p.reentrancyLocked = false ∧
        p.scores user + amount ≤ maxScore ∧ p' = writeScore user (p.scores user + amount) p := by
  simp only [raise, requireUpdater, addU32, bind_ok, pure_ok, requireAuth_ok, ensure_ok,
    exists_const, enterNonReentrant_ok, checkedU32_ok]
  constructor
  · rintro ⟨hauth, hupd, _, ⟨hlock, rfl⟩, n, ⟨-, hsum⟩, hle, rfl⟩
    dsimp only at hsum
    have hn : n = p.scores user + amount := by omega
    subst hn
    refine ⟨hauth, hupd, hlock, hle, ?_⟩
    simp only [exitNonReentrant, writeScore, hlock]
  · rintro ⟨hauth, hupd, hlock, hle, rfl⟩
    have hlt : ((p.scores user : Int) + amount) < 2 ^ 32 := by
      simp only [maxScore] at hle
      omega
    refine ⟨hauth, hupd, _, ⟨hlock, rfl⟩, p.scores user + amount, ⟨hlt, by simp⟩, hle, ?_⟩
    simp only [exitNonReentrant, writeScore, hlock]

theorem lower_ok (hfits : p.scores user < 2 ^ 32) :
    lower env updater user amount p = .ok p' ↔
      env.auths updater = true ∧ p.updaters updater = true ∧ p.reentrancyLocked = false ∧
        amount ≤ p.scores user ∧ p' = writeScore user (p.scores user - amount) p := by
  simp only [lower, requireUpdater, subU32, bind_ok, pure_ok, requireAuth_ok, ensure_ok,
    exists_const, enterNonReentrant_ok, checkedU32_ok]
  constructor
  · rintro ⟨hauth, hupd, _, ⟨hlock, rfl⟩, n, ⟨-, hdiff⟩, rfl⟩
    dsimp only at hdiff
    have hn : n = p.scores user - amount := by omega
    subst hn
    refine ⟨hauth, hupd, hlock, by omega, ?_⟩
    simp only [exitNonReentrant, writeScore, hlock]
  · rintro ⟨hauth, hupd, hlock, hle, rfl⟩
    have hlt : (p.scores user : Int) - amount < 2 ^ 32 := by omega
    have hdiff : (p.scores user : Int) - amount = (p.scores user - amount : Nat) := by omega
    refine ⟨hauth, hupd, _, ⟨hlock, rfl⟩, p.scores user - amount, ⟨hlt, hdiff⟩, ?_⟩
    simp only [exitNonReentrant, writeScore, hlock]

/-- Every score is within the bounds, and no call is in progress. -/
structure Storage.Bounded (p : Storage) : Prop where
  scores_le : ∀ user, p.scores user ≤ maxScore
  unlocked : p.reentrancyLocked = false

theorem Storage.Bounded.score_lt (h : p.Bounded) (user : Address) : p.scores user < 2 ^ 32 := by
  have := h.scores_le user
  simp only [maxScore] at this
  omega

theorem Storage.Bounded.write (h : p.Bounded) {score : Nat} (hle : score ≤ maxScore) :
    (writeScore user score p).Bounded := by
  refine ⟨fun a => ?_, h.unlocked⟩
  by_cases ha : a = user
  · subst ha
    simpa only [writeScore, Function.update_self] using hle
  · simpa only [writeScore, Function.update_of_ne ha] using h.scores_le a

theorem raise_bounded (hb : p.Bounded) (h : raise env updater user amount p = .ok p') :
    p'.Bounded := by
  obtain ⟨-, -, -, hle, rfl⟩ := raise_ok.mp h
  exact hb.write hle

theorem lower_bounded (hb : p.Bounded) (h : lower env updater user amount p = .ok p') :
    p'.Bounded := by
  obtain ⟨-, -, -, -, rfl⟩ := (lower_ok (hb.score_lt user)).mp h
  exact hb.write (Nat.le_trans (Nat.sub_le ..) (hb.scores_le user))

/-- An execution empties the upgrade slot, raises the version and releases its
lock. -/
theorem executeUpgrade_spec {newWasmHash : WasmHash}
    (h : executeUpgrade env newWasmHash p = .ok p') :
    ∃ version, p' = { p with
      version := version, pendingUpgrade := none, reentrancyLocked := false } := by
  simp only [executeUpgrade, bind_ok, pure_ok, enterNonReentrant_ok] at h
  obtain ⟨_, -, _, -, _, -, _, -, _, -, _, ⟨-, rfl⟩, version, -, _, -, rfl⟩ := h
  exact ⟨version, rfl⟩

theorem exec_bounded {call : Call} (hb : p.Bounded) (h : exec env call p = .ok p') :
    p'.Bounded := by
  cases call with
  | increaseScore => exact raise_bounded hb h
  | addBoost => exact raise_bounded hb h
  | decreaseScore => exact lower_bounded hb h
  | removeBoost => exact lower_bounded hb h
  | setScore updater user newScore =>
    simp only [exec, setScore, bind_ok, pure_ok, ensure_ok, exists_const,
      enterNonReentrant_ok] at h
    obtain ⟨_, -, _, -, hle, _, ⟨-, rfl⟩, rfl⟩ := h
    have hw : (writeScore user newScore p).Bounded := hb.write hle
    exact ⟨hw.scores_le, rfl⟩
  | setUpdater admin updater allowed =>
    simp only [exec, setUpdater, bind_ok, pure_ok, enterNonReentrant_ok] at h
    obtain ⟨_, -, _, -, _, ⟨-, rfl⟩, rfl⟩ := h
    exact ⟨hb.scores_le, rfl⟩
  | initializeContract admin =>
    simp only [exec, initializeContract, bind_ok, pure_ok, enterNonReentrant_ok] at h
    obtain ⟨_, -, _, -, _, ⟨-, rfl⟩, rfl⟩ := h
    exact ⟨hb.scores_le, rfl⟩
  | setAdmin newAdmin =>
    simp only [exec, setAdmin, bind_ok, pure_ok, enterNonReentrant_ok] at h
    obtain ⟨_, -, _, -, _, -, _, ⟨-, rfl⟩, rfl⟩ := h
    exact ⟨hb.scores_le, rfl⟩
  | setParametersContract address =>
    simp only [exec, setParametersContract, bind_ok, pure_ok] at h
    obtain ⟨_, -, _, -, rfl⟩ := h
    exact ⟨hb.scores_le, hb.unlocked⟩
  | proposeUpgrade getParameters newWasmHash =>
    simp only [exec, proposeUpgrade, bind_ok, pure_ok] at h
    obtain ⟨_, -, _, -, _, -, _, -, rfl⟩ := h
    exact ⟨hb.scores_le, hb.unlocked⟩
  | executeUpgrade newWasmHash =>
    obtain ⟨version, rfl⟩ := executeUpgrade_spec h
    exact ⟨hb.scores_le, rfl⟩
  | upgrade newWasmHash =>
    obtain ⟨version, rfl⟩ := executeUpgrade_spec h
    exact ⟨hb.scores_le, rfl⟩

/-! ## The score a call moves -/

/-- The user whose score the call writes. -/
def Call.scored : Call → Option Address
  | .increaseScore _ user _ | .decreaseScore _ user _ | .addBoost _ user _ | .removeBoost _ user _
  | .setScore _ user _ => some user
  | _ => none

/-- By how much the call moves that score, when it is not overwritten. -/
def Call.shift : Call → Int
  | .increaseScore _ _ amount | .addBoost _ _ amount => amount
  | .decreaseScore _ _ amount | .removeBoost _ _ amount => -amount
  | _ => 0

theorem writeScore_of_ne {a : Address} {score : Nat} (ha : a ≠ user) :
    (writeScore user score p).scores a = p.scores a := Function.update_of_ne ha ..

@[simp] theorem writeScore_same {score : Nat} : (writeScore user score p).scores user = score :=
  Function.update_self ..

theorem executeUpgrade_withScores {newWasmHash : WasmHash} (scores : Address → Nat)
    (h : executeUpgrade env newWasmHash p = .ok p') :
    executeUpgrade env newWasmHash { p with scores := scores } =
      .ok { p' with scores := scores } := by
  simp only [executeUpgrade, bind_ok, pure_ok, enterNonReentrant_ok] at h ⊢
  obtain ⟨_, hadmin, _, hauth, _, hpending, _, hhash, _, htime, _, ⟨hlock, rfl⟩, version,
    hversion, _, hcode, rfl⟩ := h
  exact ⟨_, hadmin, _, hauth, _, hpending, _, hhash, _, htime, _, ⟨hlock, rfl⟩, version,
    hversion, _, hcode, rfl⟩

/-- A call that writes no score does not look at the scores either. -/
theorem exec_withScores {call : Call} (hcall : call.scored = none) (scores : Address → Nat)
    (h : exec env call p = .ok p') :
    exec env call { p with scores := scores } = .ok { p' with scores := scores } := by
  cases call with
  | increaseScore => simp [Call.scored] at hcall
  | addBoost => simp [Call.scored] at hcall
  | decreaseScore => simp [Call.scored] at hcall
  | removeBoost => simp [Call.scored] at hcall
  | setScore => simp [Call.scored] at hcall
  | setUpdater admin updater allowed =>
    simp only [exec, setUpdater, bind_ok, pure_ok, enterNonReentrant_ok] at h ⊢
    obtain ⟨_, hauth, _, hadmin, _, ⟨hlock, rfl⟩, rfl⟩ := h
    exact ⟨_, hauth, _, hadmin, _, ⟨hlock, rfl⟩, rfl⟩
  | initializeContract admin =>
    simp only [exec, initializeContract, bind_ok, pure_ok, enterNonReentrant_ok] at h ⊢
    obtain ⟨_, hauth, _, hnew, _, ⟨hlock, rfl⟩, rfl⟩ := h
    exact ⟨_, hauth, _, hnew, _, ⟨hlock, rfl⟩, rfl⟩
  | setAdmin newAdmin =>
    simp only [exec, setAdmin, bind_ok, pure_ok, enterNonReentrant_ok] at h ⊢
    obtain ⟨_, hold, _, hauth, _, hadmin, _, ⟨hlock, rfl⟩, rfl⟩ := h
    exact ⟨_, hold, _, hauth, _, hadmin, _, ⟨hlock, rfl⟩, rfl⟩
  | setParametersContract address =>
    simp only [exec, setParametersContract, bind_ok, pure_ok] at h ⊢
    obtain ⟨_, hadmin, _, hauth, rfl⟩ := h
    exact ⟨_, hadmin, _, hauth, rfl⟩
  | proposeUpgrade getParameters newWasmHash =>
    simp only [exec, proposeUpgrade, bind_ok, pure_ok] at h ⊢
    obtain ⟨_, hadmin, _, hauth, delay, hdelay, pending, hpending, rfl⟩ := h
    exact ⟨_, hadmin, _, hauth, delay, hdelay, pending, hpending, rfl⟩
  | executeUpgrade newWasmHash =>
    exact executeUpgrade_withScores scores h
  | upgrade newWasmHash =>
    exact executeUpgrade_withScores scores h

theorem exec_scores_of_none {call : Call} (hcall : call.scored = none)
    (h : exec env call p = .ok p') : p'.scores = p.scores := by
  have hsame := exec_withScores hcall p.scores h
  have heq : p' = { p' with scores := p.scores } := Except.ok.inj (h.symm.trans hsame)
  rw [heq]

/-- A call that writes a score writes nothing else. -/
theorem exec_scored {call : Call} (hb : p.Bounded) (hcall : call.scored = some user)
    (h : exec env call p = .ok p') : ∃ score, p' = writeScore user score p := by
  cases call with
  | increaseScore =>
    obtain rfl := Option.some.inj hcall
    exact ⟨_, (raise_ok.mp h).2.2.2.2⟩
  | addBoost =>
    obtain rfl := Option.some.inj hcall
    exact ⟨_, (raise_ok.mp h).2.2.2.2⟩
  | decreaseScore =>
    obtain rfl := Option.some.inj hcall
    exact ⟨_, ((lower_ok (hb.score_lt _)).mp h).2.2.2.2⟩
  | removeBoost =>
    obtain rfl := Option.some.inj hcall
    exact ⟨_, ((lower_ok (hb.score_lt _)).mp h).2.2.2.2⟩
  | setScore updater target newScore =>
    obtain rfl := Option.some.inj hcall
    simp only [exec, setScore, bind_ok, pure_ok, enterNonReentrant_ok] at h
    obtain ⟨_, -, _, -, _, -, _, ⟨hlock, rfl⟩, rfl⟩ := h
    refine ⟨newScore, ?_⟩
    simp only [exitNonReentrant, writeScore, hlock]
  | _ => simp [Call.scored] at hcall

theorem exec_scores_of_ne {call : Call} (hb : p.Bounded) (h : exec env call p = .ok p')
    (hne : call.scored ≠ some user) : p'.scores user = p.scores user := by
  cases hcall : call.scored with
  | none => rw [exec_scores_of_none hcall h]
  | some target =>
    obtain ⟨score, rfl⟩ := exec_scored hb hcall h
    exact writeScore_of_ne fun heq => hne (by rw [hcall, heq])

end StepFi.Reputation

import StepFi.Host

/-!
# The vouching contract

Verified mentors lend a learner a reputation boost, which a revocation or the
end of the vouch takes back. The reputation contract is reached through what it
answers: the contract state is its storage and the world outside.
-/

namespace StepFi.Vouching

open Lib

/-- 30 days, in seconds. -/
abbrev vouchDuration : Nat := 2592000

/-- One mentor's vouch for one learner, kept after it ends. -/
structure VouchRecord where
  mentor : Address
  learner : Address
  ts : Nat
  boostAmount : Nat
  active : Bool
  deriving DecidableEq, Repr

/-- `ts + VOUCH_DURATION`, saturating in `u64`. -/
def VouchRecord.expiry (record : VouchRecord) : Nat := min (record.ts + vouchDuration) (2 ^ 64 - 1)

/-- What the contract sees of the reputation contract at an address. -/
structure Clients (W : Type) where
  /-- `env.current_contract_address()`. -/
  self : Address
  getScore : (reputation user : Address) → W → Except Failure Nat
  addBoost : Env → (reputation updater user : Address) → (amount : Nat) → W → Except Failure W
  removeBoost : Env → (reputation updater user : Address) → (amount : Nat) → W → Except Failure W

/-! ## Storage -/

/-- The contract's keys: an absent one is `none`, or the value its reader falls back to. -/
structure Storage where
  admin : Option Address
  reputationContract : Option Address
  vouchBoost : Option Nat
  reentrancyLocked : Bool
  mentors : Address → Bool
  /-- Keyed by mentor and learner. -/
  vouches : Address → Address → Option VouchRecord
  learnerVouches : Address → List Address
  learnerBaseline : Address → Option Nat
  learnerTotalBoost : Address → Nat
  version : Nat

/-- Storage as deployed: every key missing. -/
def Storage.empty : Storage where
  admin := none
  reputationContract := none
  vouchBoost := none
  reentrancyLocked := false
  mentors := fun _ => false
  vouches := fun _ _ => none
  learnerVouches := fun _ => []
  learnerBaseline := fun _ => none
  learnerTotalBoost := fun _ => 0
  version := 1

/-- The vouching contract's storage and the world outside it. -/
structure State (W : Type) where
  vouching : Storage
  world : W

/-- The admin, `NotInitialized` before `initialize`. -/
def getAdmin (p : Storage) : Except Failure Address := demand p.admin (.vouching .notInitialized)

/-- The contract the boosts are written to. -/
def getReputationContract (p : Storage) : Except Failure Address :=
  demand p.reputationContract (.vouching .notInitialized)

/-- What every vouch is worth, set once. -/
def getVouchBoost (p : Storage) : Except Failure Nat :=
  demand p.vouchBoost (.vouching .notInitialized)

/-- A stored vouch, ended or not, or `VouchNotFound`. -/
def getVouch (p : Storage) (mentor learner : Address) : Except Failure VouchRecord :=
  demand (p.vouches mentor learner) (.vouching .vouchNotFound)

/-- Write a vouch under its mentor and learner. -/
def setVouch (record : VouchRecord) (p : Storage) : Storage :=
  { p with
    vouches := Function.update p.vouches record.mentor
      (Function.update (p.vouches record.mentor) record.learner (some record)) }

/-- List a mentor among the learner's, once. -/
def addLearnerMentor (learner mentor : Address) (p : Storage) : Storage :=
  let mentors := p.learnerVouches learner
  if mentor ∈ mentors then p
  else { p with learnerVouches := Function.update p.learnerVouches learner (mentors ++ [mentor]) }

/-- Keep the score that no removal goes below. -/
def setLearnerBaseline (learner : Address) (baseline : Nat) (p : Storage) : Storage :=
  { p with learnerBaseline := Function.update p.learnerBaseline learner (some baseline) }

/-- Drop the baseline, as when the last boost is gone. -/
def clearLearnerBaseline (learner : Address) (p : Storage) : Storage :=
  { p with learnerBaseline := Function.update p.learnerBaseline learner none }

/-- Write the sum of the boosts in force. -/
def setTotalVouchBoost (learner : Address) (total : Nat) (p : Storage) : Storage :=
  { p with learnerTotalBoost := Function.update p.learnerTotalBoost learner total }

/-! ## Guards -/

/-- The caller is the stored admin; that it signed is asked elsewhere. -/
def requireAdmin (p : Storage) (caller : Address) : Except Failure Unit := do
  let admin ← getAdmin p
  ensure (admin = caller) (.vouching .notAdmin)

/-- Take the lock, or `ReentrancyDetected`. -/
def enterNonReentrant (p : Storage) : Except Failure Storage := do
  ensure (p.reentrancyLocked = false) (.vouching .reentrancyDetected)
  return { p with reentrancyLocked := true }

/-- Release the lock. -/
def exitNonReentrant (p : Storage) : Storage := { p with reentrancyLocked := false }

/-! ## Calls on the reputation contract -/

/-- `try_invoke_contract`, with every failure turned into the contract's own. -/
def tryInvoke {α : Type} (x : Except Failure α) : Except Failure α :=
  demand x.toOption (.vouching .reputationCallFailed)

section Reputation

variable {W : Type} (c : Clients W)

/-- The learner's score, or `ReputationCallFailed`. -/
def getReputationScore (p : Storage) (learner : Address) (w : W) : Except Failure Nat := do
  let reputation ← getReputationContract p
  tryInvoke (c.getScore reputation learner w)

/-- Have the reputation contract raise the learner's score. -/
def addReputationBoost (env : Env) (p : Storage) (learner : Address) (boostAmount : Nat) (w : W) :
    Except Failure W := do
  let reputation ← getReputationContract p
  tryInvoke (c.addBoost (env.callFrom c.self []) reputation c.self learner boostAmount w)

/-- Have the reputation contract lower the learner's score. -/
def removeReputationBoost (env : Env) (p : Storage) (learner : Address) (boostAmount : Nat)
    (w : W) : Except Failure W := do
  let reputation ← getReputationContract p
  tryInvoke (c.removeBoost (env.callFrom c.self []) reputation c.self learner boostAmount w)

/-- No call is made for nothing. -/
def removeIfPositive (env : Env) (p : Storage) (learner : Address) (removable : Nat) (w : W) :
    Except Failure W :=
  if 0 < removable then removeReputationBoost c env p learner removable w else .ok w

/-- Take back a vouch's boost, but nothing below the shared baseline. -/
def removeReputationBoostClamped (env : Env) (learner : Address) (record : VouchRecord)
    (s : State W) : Except Failure (State W) := do
  let current ← getReputationScore c s.vouching learner s.world
  let baseline := (s.vouching.learnerBaseline learner).getD current
  let total := s.vouching.learnerTotalBoost learner
  let removable := min (current - baseline) record.boostAmount
  let w ← removeIfPositive c env s.vouching learner removable s.world
  let newTotal := total - record.boostAmount
  let p := setTotalVouchBoost learner newTotal s.vouching
  return ⟨if newTotal = 0 then clearLearnerBaseline learner p else p, w⟩

/-! ## Vouches -/

/-- A vouch stored as active bars another, also one past its expiry. -/
def checkInactive (p : Storage) (mentor learner : Address) : Except Failure Unit :=
  match p.vouches mentor learner with
  | some existing => ensure (existing.active = false) (.vouching .vouchAlreadyActive)
  | none => .ok ()

/-- The score before any vouch is kept as the baseline when the first one comes. -/
def captureBaseline (learner : Address) (s : State W) : Except Failure Storage :=
  if s.vouching.learnerTotalBoost learner = 0 then do
    let baseline ← getReputationScore c s.vouching learner s.world
    return setLearnerBaseline learner baseline s.vouching
  else .ok s.vouching

/-- `total + boost_amount` is a plain `u32` sum, which panics on overflow. -/
def vouch (env : Env) (mentor learner : Address) (s : State W) : Except Failure (State W) := do
  requireAuth env mentor
  ensure (s.vouching.mentors mentor = true) (.vouching .mentorNotVerified)
  checkInactive s.vouching mentor learner
  let p ← enterNonReentrant s.vouching
  let boostAmount ← getVouchBoost p
  let total := p.learnerTotalBoost learner
  let p ← captureBaseline c learner ⟨p, s.world⟩
  let record : VouchRecord := {
    mentor, learner, ts := env.timestamp, boostAmount, active := true }
  let p := addLearnerMentor learner mentor (setVouch record p)
  let w ← addReputationBoost c env p learner boostAmount s.world
  let newTotal ← checkedU32 .panic (total + boostAmount)
  return ⟨exitNonReentrant (setTotalVouchBoost learner newTotal p), w⟩

/-- The part `revoke_vouch` and `expire_vouch` share. -/
def deactivate (env : Env) (learner : Address) (record : VouchRecord) (s : State W) :
    Except Failure (State W) := do
  let p ← enterNonReentrant s.vouching
  let s ← removeReputationBoostClamped c env learner record ⟨p, s.world⟩
  return ⟨exitNonReentrant (setVouch { record with active := false } s.vouching), s.world⟩

/-- The mentor takes back a vouch stored as active. -/
def revokeVouch (env : Env) (mentor learner : Address) (s : State W) :
    Except Failure (State W) := do
  requireAuth env mentor
  let record ← getVouch s.vouching mentor learner
  ensure (record.active = true) (.vouching .vouchNotActive)
  deactivate c env learner record s

/-- Anyone ends a vouch past its expiry; one that has ended is left alone. -/
def expireVouch (env : Env) (mentor learner : Address) (s : State W) :
    Except Failure (State W) := do
  let record ← getVouch s.vouching mentor learner
  if record.active = false then return s
  ensure (record.expiry < env.timestamp) (.vouching .vouchNotExpired)
  deactivate c env learner record s

end Reputation

/-- A record as readers see it at `now`: one that has expired shows as inactive. -/
def VouchRecord.shown (now : Nat) (record : VouchRecord) : VouchRecord :=
  if record.active = true ∧ record.expiry < now then { record with active := false } else record

/-- The vouches for a learner, as readers see them. -/
def getVouches (now : Nat) (p : Storage) (learner : Address) : List VouchRecord :=
  (p.learnerVouches learner).filterMap fun mentor =>
    (p.vouches mentor learner).map (VouchRecord.shown now)

/-! ## Administration -/

/-- Set the admin, the reputation contract and the boost, once. -/
def initializeContract (env : Env) (admin reputationContract : Address) (vouchBoost : Nat)
    (p : Storage) : Except Failure Storage := do
  requireAuth env admin
  ensure (p.admin = none) (.vouching .alreadyInitialized)
  ensure (vouchBoost ≠ 0) (.vouching .invalidBoost)
  return { p with
    admin := some admin
    reputationContract := some reputationContract
    vouchBoost := some vouchBoost }

/-- The admin verifies a mentor, or no longer does; vouches given stay. -/
def setMentor (env : Env) (admin mentor : Address) (verified : Bool) (p : Storage) :
    Except Failure Storage := do
  requireAuth env admin
  requireAdmin p admin
  let p ← enterNonReentrant p
  return exitNonReentrant { p with mentors := Function.update p.mentors mentor verified }

/-- `old.checked_add(1).unwrap_or(old)`, and no timelock. -/
def upgrade (env : Env) (newWasmHash : WasmHash) (p : Storage) : Except Failure Storage := do
  let admin ← getAdmin p
  requireAuth env admin
  let p ← enterNonReentrant p
  let new := if p.version + 1 < 2 ^ 32 then p.version + 1 else p.version
  updateCurrentContractWasm env newWasmHash
  return exitNonReentrant { p with version := new }

/-! ## Calls -/

/-- The entry points that write. -/
inductive Call where
  | initializeContract (admin reputationContract : Address) (vouchBoost : Nat)
  | setMentor (admin mentor : Address) (verified : Bool)
  | vouch (mentor learner : Address)
  | revokeVouch (mentor learner : Address)
  | expireVouch (mentor learner : Address)
  | upgrade (newWasmHash : WasmHash)
  deriving DecidableEq

/-- A call on the storage alone. -/
def onStorage {W : Type} (f : Storage → Except Failure Storage) (s : State W) :
    Except Failure (State W) := do
  let p ← f s.vouching
  return ⟨p, s.world⟩

/-- What a call does to the storage and the world. -/
def exec {W : Type} (c : Clients W) (env : Env) (call : Call) (s : State W) :
    Except Failure (State W) :=
  match call with
  | .initializeContract admin reputationContract vouchBoost =>
    onStorage (initializeContract env admin reputationContract vouchBoost) s
  | .setMentor admin mentor verified => onStorage (setMentor env admin mentor verified) s
  | .vouch mentor learner => vouch c env mentor learner s
  | .revokeVouch mentor learner => revokeVouch c env mentor learner s
  | .expireVouch mentor learner => expireVouch c env mentor learner s
  | .upgrade newWasmHash => onStorage (upgrade env newWasmHash) s

end StepFi.Vouching

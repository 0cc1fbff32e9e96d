import StepFi.Encoding
import StepFi.Lib.Timelock

/-! The timelocked upgrade every contract of the protocol carries in the same
form: a proposal is stored with the time from which it may be executed. -/
namespace StepFi

open Lib

/-- `DEFAULT_UPGRADE_DELAY_SECONDS`, one day. -/
abbrev defaultUpgradeDelaySeconds : Nat := 86400

structure PendingUpgrade where
  wasmHash : WasmHash
  proposedAt : Nat
  unlockAt : Nat
  deriving DecidableEq, Repr

/-- A contract's own errors for its upgrade calls. -/
structure UpgradeErrors where
  overflow : Failure
  notProposed : Failure
  hashMismatch : Failure
  timelockNotMet : Failure

/-- A governed delay of `0` counts as none. -/
def upgradeDelay (governed : Nat) : Nat :=
  if 0 < governed then governed else defaultUpgradeDelaySeconds

/-- The governed delay, read from the parameters contract: the default without one,
and where its call fails. A struct that does not unpack ends this call too. -/
def readUpgradeDelay {α : Type} (upgradeDelaySeconds : α → Nat)
    (getParameters : Address → Reply α) (parametersContract : Option Address) :
    Except Failure Nat :=
  match parametersContract with
  | some address => do
    match ← getParameters address with
    | some params => return upgradeDelay (upgradeDelaySeconds params)
    | none => return defaultUpgradeDelaySeconds
  | none => .ok defaultUpgradeDelaySeconds

def PendingUpgrade.propose (errors : UpgradeErrors) (env : Env) (delay : Nat)
    (newWasmHash : WasmHash) : Except Failure PendingUpgrade := do
  let unlockAt ← checkedU64 errors.overflow (env.timestamp + delay)
  return { wasmHash := newWasmHash, proposedAt := env.timestamp, unlockAt }

/-- What an execution checks; the result is the version it leads to. -/
def PendingUpgrade.execute (errors : UpgradeErrors) (env : Env) (newWasmHash : WasmHash)
    (pending : Option PendingUpgrade) (oldVersion : Nat) : Except Failure Nat := do
  let pending ← demand pending errors.notProposed
  ensure (pending.wasmHash = newWasmHash) errors.hashMismatch
  ensure (pending.unlockAt ≤ env.timestamp) errors.timelockNotMet
  checkedU32 errors.overflow (oldVersion + 1)

theorem upgradeDelay_pos (governed : Nat) : 0 < upgradeDelay governed := by
  unfold upgradeDelay
  split
  · assumption
  · decide

theorem upgradeDelay_of_pos {governed : Nat} (h : 0 < governed) :
    upgradeDelay governed = governed := if_pos h

section Read

variable {α : Type} {upgradeDelaySeconds : α → Nat} {getParameters : Address → Reply α}
variable {parametersContract : Option Address} {address : Address} {delay : Nat} {e : Failure}

theorem readUpgradeDelay_pos
    (h : readUpgradeDelay upgradeDelaySeconds getParameters parametersContract = .ok delay) :
    0 < delay := by
  cases parametersContract with
  | none =>
    obtain rfl := Except.ok.inj h
    decide
  | some address =>
    obtain ⟨answer, -, h⟩ := bind_ok.mp h
    cases answer with
    | none =>
      obtain rfl := pure_ok.mp h
      decide
    | some params =>
      obtain rfl := pure_ok.mp h
      exact upgradeDelay_pos _

/-- A reply that ends the caller's call ends the read. -/
theorem readUpgradeDelay_fails (h : getParameters address = .error e) :
    readUpgradeDelay upgradeDelaySeconds getParameters (some address) = .error e := by
  simp only [readUpgradeDelay, h]
  rfl

end Read

section Slot

variable {errors : UpgradeErrors} {env : Env} {newWasmHash : WasmHash}

@[simp] theorem PendingUpgrade.propose_ok {delay : Nat} {pending : PendingUpgrade} :
    PendingUpgrade.propose errors env delay newWasmHash = .ok pending ↔
      env.timestamp + delay < 2 ^ 64 ∧
        pending = ⟨newWasmHash, env.timestamp, env.timestamp + delay⟩ := by
  simp only [propose, bind_ok, pure_ok, checkedU64_ok]
  constructor
  · intro h
    obtain ⟨unlockAt, ⟨hlt, heq⟩, rfl⟩ := h
    have hunlock : unlockAt = env.timestamp + delay := by omega
    exact ⟨by omega, by rw [hunlock]⟩
  · intro h
    exact ⟨_, ⟨by omega, by omega⟩, h.2.symm⟩

/-- The body the contracts' `propose_upgrade` share, `write` storing the
proposal. -/
theorem proposal_ok {S : Type} {admin : Option Address} {e : Failure} {delay : Nat}
    {write : PendingUpgrade → S} {p' : S} :
    (do
      let a ← demand admin e
      requireAuth env a
      let pending ← PendingUpgrade.propose errors env delay newWasmHash
      return write pending) = .ok p' ↔
    (∃ a, admin = some a ∧ env.auths a = true) ∧ env.timestamp + delay < 2 ^ 64 ∧
      p' = write ⟨newWasmHash, env.timestamp, env.timestamp + delay⟩ := by
  simp only [bind_ok, pure_ok, demand_ok, requireAuth_ok, exists_const, PendingUpgrade.propose_ok]
  constructor
  · intro h
    obtain ⟨a, hadmin, hauth, _, ⟨hlt, rfl⟩, rfl⟩ := h
    exact ⟨⟨a, hadmin, hauth⟩, hlt, rfl⟩
  · intro h
    obtain ⟨⟨a, hadmin, hauth⟩, hlt, rfl⟩ := h
    exact ⟨a, hadmin, hauth, _, ⟨hlt, rfl⟩, rfl⟩

/-- The same body where the delay is read from another contract. -/
theorem proposal_reads_ok {S : Type} {admin : Option Address} {e : Failure}
    {reading : Except Failure Nat} {write : PendingUpgrade → S} {p' : S} :
    (do
      let a ← demand admin e
      requireAuth env a
      let delay ← reading
      let pending ← PendingUpgrade.propose errors env delay newWasmHash
      return write pending) = .ok p' ↔
    (∃ a, admin = some a ∧ env.auths a = true) ∧ ∃ delay, reading = .ok delay ∧
      env.timestamp + delay < 2 ^ 64 ∧
      p' = write ⟨newWasmHash, env.timestamp, env.timestamp + delay⟩ := by
  cases reading with
  | error e' => simp [bind_ok]
  | ok delay =>
    simp only [ok_bind, Except.ok.injEq, exists_eq_left']
    exact proposal_ok

@[simp] theorem PendingUpgrade.execute_ok {pending : Option PendingUpgrade}
    {oldVersion newVersion : Nat} :
    PendingUpgrade.execute errors env newWasmHash pending oldVersion = .ok newVersion ↔
      oldVersion + 1 < 2 ^ 32 ∧ newVersion = oldVersion + 1 ∧
        ∃ p, pending = some p ∧ p.wasmHash = newWasmHash ∧ p.unlockAt ≤ env.timestamp := by
  simp only [execute, bind_ok, demand_ok, ensure_ok, exists_const, checkedU32_ok]
  constructor
  · intro h
    obtain ⟨p, hp, hhash, hunlock, hlt, heq⟩ := h
    exact ⟨by omega, by omega, p, hp, hhash, hunlock⟩
  · intro h
    obtain ⟨hlt, rfl, p, hp, hhash, hunlock⟩ := h
    exact ⟨p, hp, hhash, hunlock, by omega, by omega⟩

end Slot

/-! ## The slot as a timelock -/

/-- What the upgrade calls write. -/
structure UpgradeSlot where
  pending : Option PendingUpgrade
  version : Nat

inductive UpgradeCall where
  | propose (newWasmHash : WasmHash)
  | execute (newWasmHash : WasmHash)

/-- How a contract's steps touch its upgrade slot: `slot` and `admin` read them
off a state, `asked` is the upgrade call a label makes, `delay` what a proposal
made there reads. -/
structure UpgradeView (S L : Type) where
  slot : S → UpgradeSlot
  admin : S → Option Address
  asked : L → Option (Env × UpgradeCall)
  delay : S → L → Nat

def PendingUpgrade.ticket (p : PendingUpgrade) : WasmHash × Nat := (p.wasmHash, p.unlockAt)

namespace UpgradeView

variable {S L : Type} (v : UpgradeView S L)

/-- A proposal issues a ticket under the admin's authorisation, an execution
redeems it; the version counts the executions. -/
def timelock : Timelock S L WasmHash where
  pending := fun s => (v.slot s).pending.map PendingUpgrade.ticket
  count := fun s => (v.slot s).version
  issues := fun l =>
    match v.asked l with
    | some (_, .propose newWasmHash) => some newWasmHash
    | _ => none
  redeems := fun l =>
    match v.asked l with
    | some (_, .execute newWasmHash) => some newWasmHash
    | _ => none
  authorised := fun s l => ∃ env call admin, v.asked l = some (env, call) ∧
    v.admin s = some admin ∧ env.auths admin = true
  delay := v.delay
  now := fun l =>
    match v.asked l with
    | some (env, _) => env.timestamp
    | none => 0

/-- What the three kinds of steps do to the slot. -/
structure Steps (R : S → L → S → Prop) : Prop where
  propose : ∀ {s l s' env newWasmHash}, R s l s' → v.asked l = some (env, .propose newWasmHash) →
    (∃ admin, v.admin s = some admin ∧ env.auths admin = true) ∧ 0 < v.delay s l ∧
      v.slot s' = ⟨some ⟨newWasmHash, env.timestamp, env.timestamp + v.delay s l⟩,
        (v.slot s).version⟩
  execute : ∀ {s l s' env newWasmHash}, R s l s' → v.asked l = some (env, .execute newWasmHash) →
    (∃ p, (v.slot s).pending = some p ∧ p.wasmHash = newWasmHash ∧ p.unlockAt ≤ env.timestamp) ∧
      v.slot s' = ⟨none, (v.slot s).version + 1⟩
  frame : ∀ {s l s'}, R s l s' → v.asked l = none → v.slot s' = v.slot s

theorem Steps.kept {v : UpgradeView S L} {R : S → L → S → Prop} (h : v.Steps R) :
    v.timelock.Kept R where
  issue := by
    intro s l s' newWasmHash hs hissue
    cases hasked : v.asked l with
    | none => simp [timelock, hasked] at hissue
    | some asked =>
      obtain ⟨env, _ | _⟩ := asked
      · simp only [timelock, hasked, Option.some.injEq] at hissue ⊢
        subst hissue
        obtain ⟨⟨admin, hadmin, hauth⟩, hdelay, hslot⟩ := h.propose hs hasked
        rw [hslot]
        exact ⟨trivial, ⟨env, _, admin, rfl, hadmin, hauth⟩, hdelay, rfl, rfl⟩
      · simp [timelock, hasked] at hissue
  redeem := by
    intro s l s' newWasmHash hs hredeem
    cases hasked : v.asked l with
    | none => simp [timelock, hasked] at hredeem
    | some asked =>
      obtain ⟨env, _ | _⟩ := asked
      · simp [timelock, hasked] at hredeem
      · simp only [timelock, hasked, Option.some.injEq] at hredeem ⊢
        subst hredeem
        obtain ⟨⟨p, hp, rfl, hunlock⟩, hslot⟩ := h.execute hs hasked
        rw [hslot, hp]
        exact ⟨p.unlockAt, rfl, hunlock, rfl, rfl⟩
  frame := by
    intro s l s' hs hissue hredeem
    cases hasked : v.asked l with
    | none =>
      simp only [timelock, h.frame hs hasked, and_self]
    | some asked =>
      obtain ⟨env, _ | _⟩ := asked
      · simp [timelock, hasked] at hissue
      · simp [timelock, hasked] at hredeem

end UpgradeView

end StepFi

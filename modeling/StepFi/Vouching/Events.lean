import StepFi.Vouching.Store
import StepFi.Lib.EventLog

/-!
# The vouching log

What each call publishes (`emitted`), and an auditor who sees nothing else and
checks each event against those before it: a vouch comes from a mentor and is not
already active, and what is taken back is what was lent. The log of every run
passes, and leaves the auditor with every active vouch, its boost, and what each
learner is lent in all (`log_tells_vouches`).
-/

namespace StepFi.Vouching

open Lib

variable {W : Type} {c : Clients W} {env : Env} {s s' : State W} {p p' : Storage}
variable {mentor learner : Address} {record : VouchRecord} {call : Call}

/-! ## Events -/

/-- The events, each with its topics and then its data. -/
inductive Emitted where
  | mentorVouched (mentor learner : Address) (boostAmount : Nat)
  | vouchRevoked (mentor learner : Address) (boostAmount : Nat)
  | vouchExpired (mentor learner : Address) (boostAmount : Nat)
  | mentorVerified (mentor : Address) (verified : Bool)
  | contractUpgraded (oldVersion newVersion timestamp : Nat)
  deriving DecidableEq

/-- What a call publishes; one that fails publishes nothing, nor does one that
expires a vouch already over. -/
def emitted (c : Clients W) (env : Env) (call : Call) (s : State W) :
    Except Failure (List Emitted) :=
  match call with
  | .initializeContract .. => .ok []
  | .setMentor admin mentor verified => do
    let _ ← setMentor env admin mentor verified s.vouching
    return [.mentorVerified mentor verified]
  | .vouch mentor learner => do
    let _ ← vouch c env mentor learner s
    let boostAmount ← getVouchBoost s.vouching
    return [.mentorVouched mentor learner boostAmount]
  | .revokeVouch mentor learner => do
    let _ ← revokeVouch c env mentor learner s
    let record ← getVouch s.vouching mentor learner
    return [.vouchRevoked mentor learner record.boostAmount]
  | .expireVouch mentor learner => do
    let _ ← expireVouch c env mentor learner s
    let record ← getVouch s.vouching mentor learner
    return if record.active then [.vouchExpired mentor learner record.boostAmount] else []
  | .upgrade newWasmHash => do
    let p' ← upgrade env newWasmHash s.vouching
    return [.contractUpgraded s.vouching.version p'.version env.timestamp]

def publishes (c : Clients W) (s : State W) : Label W → List Emitted
  | .call env call => (emitted c env call s).toOption.getD []
  | .world _ => []

/-! ## The auditor -/

structure Seen where
  mentors : Address → Bool
  /-- The boosts of the active vouches, by mentor and learner. -/
  boosts : Address → Address → Option Nat
  total : Address → Nat
  version : Nat

/-- The boost of a vouch, while it is active. -/
def VouchRecord.lends (record : VouchRecord) : Option Nat :=
  if record.active then some record.boostAmount else none

def Storage.seen (p : Storage) : Seen where
  mentors := p.mentors
  boosts := fun mentor learner => (p.vouches mentor learner).bind VouchRecord.lends
  total := p.learnerTotalBoost
  version := p.version

def Seen.lend (v : Seen) (mentor learner : Address) (boost : Option Nat) (total : Nat) : Seen :=
  { v with
    boosts := Function.update v.boosts mentor (Function.update (v.boosts mentor) learner boost)
    total := Function.update v.total learner total }

def Seen.takeBack (v : Seen) (mentor learner : Address) (boostAmount : Nat) : Option Seen :=
  if v.boosts mentor learner = some boostAmount ∧ boostAmount ≤ v.total learner then
    some (v.lend mentor learner none (v.total learner - boostAmount))
  else none

/-- What an event adds to what is known, if it agrees with that. -/
def audit (v : Seen) : Emitted → Option Seen
  | .mentorVouched mentor learner boostAmount =>
    if v.mentors mentor = true ∧ v.boosts mentor learner = none then
      some (v.lend mentor learner (some boostAmount) (v.total learner + boostAmount))
    else none
  | .vouchRevoked mentor learner boostAmount => v.takeBack mentor learner boostAmount
  | .vouchExpired mentor learner boostAmount => v.takeBack mentor learner boostAmount
  | .mentorVerified mentor verified =>
    some { v with mentors := Function.update v.mentors mentor verified }
  | .contractUpgraded oldVersion newVersion _ =>
    if v.version = oldVersion then some { v with version := newVersion } else none

/-- An auditor who found a fault reads no further. -/
def read (v : Option Seen) (e : Emitted) : Option Seen := v.bind fun v => audit v e

/-- What the log of a run says. -/
def audited (c : Clients W) (tr : List (State W × Label W)) : Option Seen :=
  (logged (publishes c) tr).foldl read (some Storage.empty.seen)

/-! ## A call read off its events -/

/-- A record written shows as what it lends. -/
theorem setVouch_boosts (record : VouchRecord) (p : Storage) :
    (setVouch record p).seen.boosts = Function.update p.seen.boosts record.mentor
      (Function.update (p.seen.boosts record.mentor) record.learner record.lends) := by
  funext mentor learner
  by_cases hm : mentor = record.mentor
  · subst hm
    by_cases hl : learner = record.learner
    · subst hl
      simp [setVouch, Storage.seen]
    · simp [setVouch, Storage.seen, hl]
  · simp [setVouch, Storage.seen, hm]

theorem seen_lent (record : VouchRecord) (p : Storage) (baseline : Option Nat) :
    (p.lent record baseline).seen = p.seen.lend record.mentor record.learner record.lends
      (p.learnerTotalBoost record.learner + record.boostAmount) := by
  rw [Seen.lend, ← setVouch_boosts]
  rfl

theorem seen_withdrawn (record : VouchRecord) (p : Storage) :
    (p.withdrawn record.learner record).seen = p.seen.lend record.mentor record.learner none
      (p.learnerTotalBoost record.learner - record.boostAmount) := by
  have hboosts := setVouch_boosts { record with active := false } p
  dsimp only at hboosts
  rw [Seen.lend]
  exact congrArg (fun boosts => { p.seen with
    boosts := boosts
    total := Function.update p.seen.total record.learner
      (p.learnerTotalBoost record.learner - record.boostAmount) }) hboosts

theorem Lends.audit {reputation boost : Nat} {baseline : Option Nat}
    (h : Lends c env mentor learner s s' reputation boost baseline) :
    audit s.vouching.seen (.mentorVouched mentor learner boost) = some s'.vouching.seen := by
  have hfree : s.vouching.seen.boosts mentor learner = none := by
    cases hfound : s.vouching.vouches mentor learner with
    | none => simp [Storage.seen, hfound]
    | some record => simp [Storage.seen, hfound, VouchRecord.lends, h.inactive record hfound]
  have hpasses : s.vouching.seen.mentors mentor = true ∧
      s.vouching.seen.boosts mentor learner = none := ⟨h.verified, hfree⟩
  have hlent := seen_lent ⟨mentor, learner, env.timestamp, boost, true⟩ s.vouching baseline
  rw [h.lent, hlent]
  exact if_pos hpasses

theorem Withdraws.audit {reputation current : Nat} (hs : s.vouching.Sound)
    (hfound : s.vouching.vouches mentor learner = some record) (hactive : record.active = true)
    (h : Withdraws c env learner record s s' reputation current) :
    s.vouching.seen.takeBack mentor learner record.boostAmount = some s'.vouching.seen := by
  obtain ⟨rfl, rfl, -⟩ := hs.keyed mentor learner record hfound
  have hlent : s.vouching.seen.boosts record.mentor record.learner = some record.boostAmount := by
    simp [Storage.seen, hfound, VouchRecord.lends, hactive]
  have hpasses : s.vouching.seen.boosts record.mentor record.learner = some record.boostAmount ∧
      record.boostAmount ≤ s.vouching.seen.total record.learner :=
    ⟨hlent, (hs.agrees record.learner).boost_le hfound hactive⟩
  rw [h.withdrawn, seen_withdrawn]
  exact if_pos hpasses

/-- The events of a call carry the auditor over it. -/
theorem exec_seen (hs : s.vouching.Sound) (h : exec c env call s = .ok s') :
    ((emitted c env call s).toOption.getD []).foldl read (some s.vouching.seen) =
      some s'.vouching.seen := by
  cases call with
  | initializeContract admin reputation boost =>
    simp only [exec, onStorage, initializeContract, bind_ok, pure_ok] at h
    obtain ⟨_, ⟨_, -, _, -, _, -, rfl⟩, rfl⟩ := h
    rfl
  | setMentor admin mentor verified =>
    obtain ⟨p', h₁, hs'⟩ := bind_ok.mp h
    obtain rfl := pure_ok.mp hs'
    simp only [emitted, h₁]
    simp only [setMentor, bind_ok, pure_ok, enterNonReentrant_ok] at h₁
    obtain ⟨_, -, _, -, _, ⟨-, rfl⟩, rfl⟩ := h₁
    rfl
  | vouch mentor learner =>
    have h₁ : vouch c env mentor learner s = .ok s' := h
    obtain ⟨_, boost, _, hlends⟩ := vouch_spec h₁
    have hboost : getVouchBoost s.vouching = .ok boost := demand_ok.mpr hlends.amount
    simp only [emitted, h₁, ok_bind, hboost]
    exact hlends.audit
  | revokeVouch mentor learner =>
    have h₁ : revokeVouch c env mentor learner s = .ok s' := h
    obtain ⟨-, record, hfound, hactive, hd⟩ := revokeVouch_ok.mp h₁
    obtain ⟨_, _, hw⟩ := deactivate_ok.mp hd
    have hrecord : getVouch s.vouching mentor learner = .ok record := demand_ok.mpr hfound
    simp only [emitted, h₁, ok_bind, hrecord]
    exact hw.audit hs hfound hactive
  | expireVouch mentor learner =>
    have h₁ : expireVouch c env mentor learner s = .ok s' := h
    obtain ⟨record, hfound, hcase⟩ := expireVouch_ok.mp h₁
    have hrecord : getVouch s.vouching mentor learner = .ok record := demand_ok.mpr hfound
    simp only [emitted, h₁, ok_bind, hrecord]
    rcases hcase with ⟨hinactive, rfl⟩ | ⟨hactive, -, hd⟩
    · rw [hinactive]
      rfl
    · obtain ⟨_, _, hw⟩ := deactivate_ok.mp hd
      rw [hactive]
      exact hw.audit hs hfound hactive
  | upgrade newWasmHash =>
    obtain ⟨p', h₁, hs'⟩ := bind_ok.mp h
    obtain rfl := pure_ok.mp hs'
    simp only [emitted, h₁]
    simp only [upgrade, bind_ok, pure_ok, enterNonReentrant_ok] at h₁
    obtain ⟨_, -, _, -, _, ⟨-, rfl⟩, _, -, rfl⟩ := h₁
    exact if_pos rfl

theorem observes (c : Clients W) : Observes Deployed (Step c) (publishes c) read
    (some Storage.empty.seen) fun v s => v = some s.vouching.seen where
  start := by
    intro s h0
    rw [show s.vouching = Storage.empty from h0]
  step := by
    rintro s l s' _ hreach rfl hs
    cases l with
    | call env call => exact exec_seen (sound_of_reachable hreach) hs
    | world w =>
      cases hs
      rfl

/-- Whatever the reputation contract does, the log of every run passes the audit,
and says exactly who is a mentor, which vouches are active and what each lends, and
what every learner is lent in all. -/
theorem log_tells_vouches {s₀ : State W} {tr : List (State W × Label W)}
    (h : Run (Step c) s₀ tr s) (h0 : Deployed s₀) : audited c tr = some s.vouching.seen :=
  (observes c).run h0 h

/-- After the vouches, the revocation and the new vouch of `sampleLabels`, anyone
lets the older vouch expire. -/
theorem log_tells_vouches_sample :
    ∃ (s : State (Address → Nat)) (tr : List (State (Address → Nat) × Label (Address → Nat))),
      audited .scoring tr = some s.vouching.seen ∧ s.vouching.seen.boosts 21 30 = some 10 ∧
      s.vouching.seen.boosts 22 30 = none ∧ s.vouching.seen.total 30 = 10 := by
  have hreplay : (replay (take .scoring) sampleStart (sampleLabels ++
      [.call (Env.signedBy [] 2592201) (.expireVouch 22 30)])).toOption.map
      (fun r => (r.2.vouching.seen.boosts 21 30, r.2.vouching.seen.boosts 22 30,
        r.2.vouching.seen.total 30)) = some (some 10, none, 10) := by decide +kernel
  obtain ⟨tr, s, hr, hobs⟩ := replay_observed hreplay
  simp only [Prod.mk.injEq] at hobs
  obtain ⟨hactive, hover, htotal⟩ := hobs
  have hrun : Run (Step .scoring) sampleStart tr s := Run.of_replay (fun _ _ _ _ h => h) hr
  exact ⟨s, tr, log_tells_vouches hrun rfl, hactive, hover, htotal⟩

end StepFi.Vouching

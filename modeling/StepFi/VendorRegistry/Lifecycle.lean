import StepFi.VendorRegistry.Contract
import StepFi.Lib.Indexed
import StepFi.Lib.Transition

/-!
# The life of a vendor

One administrator registers vendors and moves them between their states; no call
hands the registry to another. A vendor is registered once and stays, under the
name and the date it was registered with, and its status is the one the
administrator gave it last (`vendors_follow_admin`).
-/

namespace StepFi.VendorRegistry

open Lib

variable {env : Env} {call : Call} {p p' : Storage} {l : Label} {caller vendor : Address}
variable {info : VendorInfo} {given : VendorStatus} {tr : List (Storage × Label)}

/-- The vendor a call is about and the status it gives it. -/
def Call.ruling : Call → Option (Address × VendorStatus)
  | .registerVendor _ vendor _ => some (vendor, .pending)
  | .approveVendor _ vendor => some (vendor, .approved)
  | .suspendVendor _ vendor => some (vendor, .suspended)
  | .deactivateVendor _ vendor => some (vendor, .suspended)
  | .activateVendor _ vendor => some (vendor, .approved)
  | .setVendorStatus _ vendor active => some (vendor, if active then .approved else .suspended)
  | _ => none

/-- The status a call gives to `vendor`. -/
def Call.gives (vendor : Address) (call : Call) : Option VendorStatus :=
  match call.ruling with
  | some (named, status) => if named = vendor then some status else none
  | none => none

/-! ## What a call does -/

/-- A call of the administrator on the record of `vendor`. -/
structure Rules (env : Env) (p : Storage) (vendor : Address) (info : VendorInfo) (p' : Storage) :
    Prop where
  authorised : ∃ admin, p.admin = some admin ∧ env.auths admin = true
  admin : p'.admin = p.admin
  vendors : p'.vendors = Function.update p.vendors vendor (some info)

/-- What a call does to the vendors. -/
inductive Effect (env : Env) (p : Storage) : Call → Storage → Prop
  | register {admin vendor : Address} {name : List UInt8} {p' : Storage} :
      Rules env p vendor ⟨name, env.timestamp, .pending, 0⟩ p' → p.vendors vendor = none →
      name ≠ [] → name.length ≤ 64 → p'.vendorCount = p.vendorCount + 1 →
      Effect env p (.registerVendor admin vendor name) p'
  | rule {call : Call} {vendor : Address} {info : VendorInfo} {status : VendorStatus}
      {p' : Storage} : call.ruling = some (vendor, status) →
      Rules env p vendor { info with status := status } p' → p.vendors vendor = some info →
      p'.vendorCount = p.vendorCount → Effect env p call p'
  | other {call : Call} {p' : Storage} : call.ruling = none → p'.vendors = p.vendors →
      p'.vendorCount = p.vendorCount → (p.admin.isSome = true → p'.admin = p.admin) →
      Effect env p call p'

theorem requireAdmin_ok {u : Unit} :
    requireAdmin env p caller = .ok u ↔ env.auths caller = true ∧ p.admin = some caller := by
  simp only [requireAdmin, getAdmin, bind_ok, requireAuth_ok, demand_ok, ensure_ok, exists_const]
  constructor
  · rintro ⟨hauth, _, hadmin, rfl⟩
    exact ⟨hauth, hadmin⟩
  · rintro ⟨hauth, hadmin⟩
    exact ⟨hauth, _, hadmin, rfl⟩

@[simp] theorem checkNonReentrant_ok : checkNonReentrant p = .ok p' ↔
    p.reentrancyLocked = false ∧ { p with reentrancyLocked := true } = p' := by
  simp only [checkNonReentrant, bind_ok, pure_ok, ensure_ok, exists_const]

theorem setStatus_effect {check : VendorInfo → Except Failure Unit}
    (hruling : call.ruling = some (vendor, given))
    (h : setStatus env caller vendor check given p = .ok p') : Effect env p call p' := by
  simp only [setStatus, getVendor, bind_ok, pure_ok, requireAdmin_ok, checkNonReentrant_ok,
    demand_ok] at h
  obtain ⟨_, -, _, ⟨hauth, hadmin⟩, _, ⟨-, rfl⟩, info, hinfo, _, -, rfl⟩ := h
  exact .rule hruling ⟨⟨caller, hadmin, hauth⟩, rfl, rfl⟩ hinfo rfl

theorem exec_effect (h : exec env call p = .ok p') : Effect env p call p' := by
  cases call with
  | initializeContract admin =>
    simp only [exec, initializeContract, bind_ok, pure_ok, ensure_ok, exists_const] at h
    obtain ⟨_, -, hnone, rfl⟩ := h
    refine .other rfl rfl rfl fun hsome => ?_
    simp [hnone] at hsome
  | registerVendor admin vendor name =>
    simp only [exec, registerVendor, incrementVendorCount, bind_ok, pure_ok, ensure_ok,
      exists_const, requireAdmin_ok, checkNonReentrant_ok, checkedU64_ok] at h
    obtain ⟨-, ⟨hauth, hadmin⟩, hfresh, ⟨hname, hlength⟩, _, ⟨-, rfl⟩, _, ⟨count, ⟨-, hcount⟩,
      rfl⟩, rfl⟩ := h
    refine .register ⟨⟨admin, hadmin, hauth⟩, rfl, rfl⟩ (by simpa using hfresh) hname hlength ?_
    show count = p.vendorCount + 1
    have hcount : ((p.vendorCount : Int) + 1) = count := hcount
    omega
  | approveVendor admin vendor => exact setStatus_effect rfl h
  | suspendVendor admin vendor => exact setStatus_effect rfl h
  | deactivateVendor admin vendor => exact setStatus_effect rfl h
  | activateVendor admin vendor => exact setStatus_effect rfl h
  | setVendorStatus admin vendor active => exact setStatus_effect rfl h
  | setParametersContract address =>
    simp only [exec, setParametersContract, bind_ok, pure_ok] at h
    obtain ⟨_, -, _, -, rfl⟩ := h
    exact .other rfl rfl rfl fun _ => rfl
  | proposeUpgrade getParameters newWasmHash =>
    simp only [exec, proposeUpgrade, bind_ok, pure_ok] at h
    obtain ⟨_, -, _, -, _, -, _, -, rfl⟩ := h
    exact .other rfl rfl rfl fun _ => rfl
  | executeUpgrade newWasmHash =>
    simp only [exec, executeUpgrade, bind_ok, pure_ok] at h
    obtain ⟨_, -, _, -, _, -, _, -, rfl⟩ := h
    exact .other rfl rfl rfl fun _ => rfl
  | upgrade newWasmHash =>
    simp only [exec, upgrade, executeUpgrade, bind_ok, pure_ok] at h
    obtain ⟨_, -, _, -, _, -, _, -, rfl⟩ := h
    exact .other rfl rfl rfl fun _ => rfl

/-! ## Over a run -/

/-- The status stored for a vendor, none before it is registered. -/
def Storage.status (p : Storage) (vendor : Address) : Option VendorStatus :=
  (p.vendors vendor).map VendorInfo.status

theorem isActive_iff : isActive p vendor = true ↔ p.status vendor = some .approved := by
  unfold isActive getVendor Storage.status
  cases p.vendors vendor <;> simp [demand]

theorem gives_of_ruling (h : call.ruling = some (vendor, given)) (other : Address) :
    call.gives other = if vendor = other then some given else none := by
  simp only [Call.gives, h]

theorem gives_of_none (h : call.ruling = none) (other : Address) : call.gives other = none := by
  simp only [Call.gives, h]

theorem Rules.status (h : Rules env p vendor info p') (other : Address) :
    p'.status other = (if vendor = other then some info.status else none).or (p.status other) := by
  unfold Storage.status
  rw [h.vendors]
  by_cases hv : vendor = other
  · subst hv
    simp
  · simp [hv, Function.update_of_ne (Ne.symm hv)]

/-- A call writes the status it gives, and no other. -/
theorem Step.status (h : Step p l p') (vendor : Address) :
    p'.status vendor = (l.call.gives vendor).or (p.status vendor) := by
  obtain ⟨env, call⟩ := l
  cases exec_effect h with
  | register hrules => rw [hrules.status, gives_of_ruling rfl]
  | rule hruling hrules => rw [hrules.status, gives_of_ruling hruling]
  | other hruling hvendors => rw [gives_of_none hruling, Storage.status, hvendors]; rfl

/-- What a run has written about the vendors. -/
structure Chronicle (tr : List (Storage × Label)) (p : Storage) : Prop where
  listed : ∃ vendors, Listed vendors p.vendors ∧ vendors.length = p.vendorCount
  registered : ∀ vendor info, p.vendors vendor = some info →
    info.name ≠ [] ∧ info.name.length ≤ 64 ∧ info.totalSales = 0 ∧
      ∃ x ∈ tr, ∃ admin, x.2.call = .registerVendor admin vendor info.name ∧
        x.2.env.timestamp = info.registrationDate
  authorised : ∀ x ∈ tr, x.2.call.ruling ≠ none →
    ∃ admin, p.admin = some admin ∧ x.2.env.auths admin = true

theorem Chronicle.empty : Chronicle [] Storage.empty where
  listed := ⟨[], .empty, rfl⟩
  registered := by
    intro vendor info h
    cases h
  authorised := by simp

/-- A record written over another keeps the other's name and date. -/
theorem Chronicle.rewritten (h : Chronicle tr p) (hinfo : p.vendors vendor = some info)
    (given : VendorStatus) (l : Label) (other : Address) (new : VendorInfo)
    (hnew : Function.update p.vendors vendor (some { info with status := given }) other
      = some new) :
    new.name ≠ [] ∧ new.name.length ≤ 64 ∧ new.totalSales = 0 ∧
      ∃ x ∈ tr ++ [(p, l)], ∃ admin, x.2.call = .registerVendor admin other new.name ∧
        x.2.env.timestamp = new.registrationDate := by
  have hold : ∃ old, p.vendors other = some old ∧ new.name = old.name ∧
      new.totalSales = old.totalSales ∧ new.registrationDate = old.registrationDate := by
    by_cases hv : other = vendor
    · subst hv
      rw [Function.update_self, Option.some.injEq] at hnew
      subst hnew
      exact ⟨info, hinfo, rfl, rfl, rfl⟩
    · rw [Function.update_of_ne hv] at hnew
      exact ⟨new, hnew, rfl, rfl, rfl⟩
  obtain ⟨old, hold, hname, hsales, hdate⟩ := hold
  obtain ⟨hne, hlength, hzero, x, hx, hcall⟩ := h.registered other old hold
  rw [hname, hsales, hdate]
  exact ⟨hne, hlength, hzero, x, List.mem_append_left _ hx, hcall⟩

/-- No call changes an administrator that is set. -/
theorem Step.admin (h : Step p l p') (hsome : p.admin.isSome = true) : p'.admin = p.admin := by
  obtain ⟨env, call⟩ := l
  cases exec_effect h with
  | register hrules => exact hrules.admin
  | rule hruling hrules => exact hrules.admin
  | other hruling hvendors hcount hadmin => exact hadmin hsome

theorem Chronicle.step (hc : Chronicle tr p) (h : Step p l p') :
    Chronicle (tr ++ [(p, l)]) p' := by
  have hadmin := h.admin
  have heffect := exec_effect h
  obtain ⟨env, call⟩ := l
  obtain ⟨vendors, hlisted, hcount⟩ := hc.listed
  have hearlier : ∀ x ∈ tr, x.2.call.ruling ≠ none →
      ∃ admin, p'.admin = some admin ∧ x.2.env.auths admin = true := by
    intro x hx hruling
    obtain ⟨admin, hstored, hauth⟩ := hc.authorised x hx hruling
    exact ⟨admin, (hadmin (by simp [hstored])).trans hstored, hauth⟩
  have hauthorised : (call.ruling ≠ none →
      ∃ admin, p'.admin = some admin ∧ env.auths admin = true) →
      ∀ x ∈ tr ++ [(p, ⟨env, call⟩)], x.2.call.ruling ≠ none →
        ∃ admin, p'.admin = some admin ∧ x.2.env.auths admin = true := by
    intro hnow x hx
    rcases List.mem_append.mp hx with hx | hx
    · exact hearlier x hx
    · obtain rfl := List.mem_singleton.mp hx
      exact hnow
  cases heffect with
  | @register admin vendor name _ hrules hfresh hname hlength hnext =>
    have hnew : vendor ∉ vendors := by
      rw [hlisted.mem_iff, hfresh]
      simp
    refine ⟨⟨enroll vendor vendors, ?_, ?_⟩, ?_, hauthorised fun _ => ?_⟩
    · rw [hrules.vendors]
      exact hlisted.enter
    · rw [enroll, if_neg hnew, List.length_append, hcount, hnext]
      rfl
    · intro other info hinfo
      rw [hrules.vendors] at hinfo
      by_cases hv : other = vendor
      · subst hv
        rw [Function.update_self, Option.some.injEq] at hinfo
        subst hinfo
        exact ⟨hname, hlength, rfl, _, List.mem_append_right _ (List.mem_singleton_self _), admin,
          rfl, rfl⟩
      · rw [Function.update_of_ne hv] at hinfo
        obtain ⟨h₁, h₂, h₃, x, hx, hcall⟩ := hc.registered other info hinfo
        exact ⟨h₁, h₂, h₃, x, List.mem_append_left _ hx, hcall⟩
    · rw [hrules.admin]
      exact hrules.authorised
  | @rule _ vendor info status _ hruling hrules hinfo hsame =>
    refine ⟨⟨enroll vendor vendors, ?_, ?_⟩, ?_, hauthorised fun _ => ?_⟩
    · rw [hrules.vendors]
      exact hlisted.enter
    · rw [enroll_of_mem (hlisted.mem hinfo), hcount, hsame]
    · intro other new hnew
      rw [hrules.vendors] at hnew
      exact hc.rewritten hinfo status _ other new hnew
    · rw [hrules.admin]
      exact hrules.authorised
  | other hruling hvendors hsame =>
    refine ⟨⟨vendors, by rwa [hvendors], by rw [hcount, hsame]⟩, ?_,
      hauthorised fun hne => absurd hruling hne⟩
    intro vendor info hinfo
    rw [hvendors] at hinfo
    obtain ⟨h₁, h₂, h₃, x, hx, hcall⟩ := hc.registered vendor info hinfo
    exact ⟨h₁, h₂, h₃, x, List.mem_append_left _ hx, hcall⟩

theorem Run.chronicle {p₀ : Storage} (h : Run Step p₀ tr p) (h0 : Deployed p₀) :
    Chronicle tr p :=
  h.history (P := Chronicle) (h0 ▸ .empty) fun _ _ _ _ hc hstep => hc.step hstep

/-- Over every run from deployment a vendor has the status the last call about it
gave, and is active exactly when that was an approval. Each of these calls was
authorised by the one administrator the registry ever has, every record was
registered under its name and date by a call of the run, and the counter counts the
records. -/
theorem vendors_follow_admin {p₀ : Storage} (h : Run Step p₀ tr p) (h0 : Deployed p₀) :
    (∀ vendor, p.status vendor = lastWrite (fun l => l.call.gives vendor) tr) ∧
    (∀ vendor, isActive p vendor = true ↔
      lastWrite (fun l => l.call.gives vendor) tr = some .approved) ∧
    (∀ x ∈ tr, x.2.call.ruling ≠ none →
      ∃ admin, p.admin = some admin ∧ x.2.env.auths admin = true) ∧
    (∀ vendor info, p.vendors vendor = some info →
      info.name ≠ [] ∧ info.name.length ≤ 64 ∧ info.totalSales = 0 ∧
        ∃ x ∈ tr, ∃ admin, x.2.call = .registerVendor admin vendor info.name ∧
          x.2.env.timestamp = info.registrationDate) ∧
    ∃ vendors, Listed vendors p.vendors ∧ vendors.length = p.vendorCount := by
  have hstatus : ∀ vendor, p.status vendor = lastWrite (fun l => l.call.gives vendor) tr := by
    intro vendor
    have hnone : p₀.status vendor = none := by
      rw [h0]
      rfl
    exact h.cell_eq_lastWrite (fun p => p.status vendor) hnone
      fun _ _ _ hstep => hstep.status vendor
  have hchronicle := Run.chronicle h h0
  refine ⟨hstatus, ?_, hchronicle.authorised, hchronicle.registered, hchronicle.listed⟩
  intro vendor
  rw [isActive_iff, hstatus]

/-- The administrator `10` registers, approves and suspends the vendor `30`. -/
def sampleLabels : List Label :=
  [⟨Env.signedBy [10] 50, .initializeContract 10⟩,
    ⟨Env.signedBy [10] 60, .registerVendor 10 30 [83]⟩,
    ⟨Env.signedBy [10] 70, .approveVendor 10 30⟩,
    ⟨Env.signedBy [10] 80, .suspendVendor 10 30⟩]

theorem vendors_follow_admin_sample : ∃ (tr : List (Storage × Label)) (p : Storage),
    p.status 30 = some .suspended ∧
      lastWrite (fun l => l.call.gives 30) tr = some .suspended := by
  have hreplay : (replay take Storage.empty sampleLabels).toOption.map
      (fun r => r.2.status 30) = some (some .suspended) := by decide +kernel
  obtain ⟨tr, p, hr, hstatus⟩ := replay_observed hreplay
  have hrun : Run Step .empty tr p := Run.of_replay (fun _ _ _ _ h => h) hr
  exact ⟨tr, p, hstatus, ((vendors_follow_admin hrun rfl).1 30).symm.trans hstatus⟩

end StepFi.VendorRegistry

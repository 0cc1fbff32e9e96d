import StepFi.Network.Lending

/-!
# Who sets the contracts up

Each contract has an administrator, named when it is initialised, and settings:
the administrator itself, the addresses of the other contracts, caps, flags, score
updaters, mentors, vendors, a proposed upgrade. No entry point lets anyone else
touch them, whatever call a contract makes on another (`settings_need_admin`).
The governed parameters move by executed proposals too.
-/

namespace StepFi

open Lib

/-- The administrator authorised the call, or there is none yet. -/
def Sanctioned (env : Env) (admin : Option Address) : Prop :=
  ∀ a, admin = some a → env.auths a = true

instance (env : Env) (admin : Option Address) : Decidable (Sanctioned env admin) :=
  match admin with
  | none => .isTrue nofun
  | some a => decidable_of_iff (env.auths a = true)
      ⟨fun h _ ha => Option.some.inj ha ▸ h, fun h => h a rfl⟩

theorem sanctioned_of_none {env : Env} {admin : Option Address} (h : admin = none) :
    Sanctioned env admin := by
  intro a ha
  rw [h] at ha
  cases ha

theorem sanctioned_of_auth {env : Env} {admin : Option Address} {a : Address}
    (h : admin = some a) (hauth : env.auths a = true) : Sanctioned env admin := by
  intro b hb
  obtain rfl : a = b := Option.some.inj (h.symm.trans hb)
  exact hauth

section Gates

variable {α β : Type} {env : Env} {admin : Option Address} {caller : Address}
  {e e' : Failure} {r : β}

/-- An entry point that begins by asking the administrator for authorisation. -/
theorem sanctioned_of_stored {f : Address → Except Failure β}
    (h : (demand admin e >>= fun a => requireAuth env a >>= fun _ => f a) = .ok r) :
    Sanctioned env admin := by
  simp only [bind_ok, demand_ok, requireAuth_ok, exists_const] at h
  obtain ⟨a, hadmin, hauth, -⟩ := h
  exact sanctioned_of_auth hadmin hauth

/-- An entry point that takes its caller for the administrator, and checks it. -/
theorem sanctioned_of_caller {f : Except Failure β}
    (h : (requireAuth env caller >>= fun _ => (demand admin e >>= fun a =>
      ensure (a = caller) e') >>= fun _ => f) = .ok r) : Sanctioned env admin := by
  simp only [bind_ok, demand_ok, ensure_ok, requireAuth_ok, exists_const] at h
  obtain ⟨hauth, ⟨_, hadmin, rfl⟩, -⟩ := h
  exact sanctioned_of_auth hadmin hauth

end Gates

/-! ## The credit line -/

namespace CreditLine

structure Settings where
  admin : Option Address
  addresses : Addresses
  paused : Bool
  slot : UpgradeSlot

def Storage.settings (p : Storage) : Settings := ⟨p.admin, p.addresses, p.paused, p.slot⟩

section Settings

variable {W : Type} {c : Clients W} {env : Env} {call : Call} {s s' : State W}

theorem adminSet_sanctioned {admin : Address} {write : Storage → Storage} {p p' : Storage}
    (h : adminSet env admin write p = .ok p') : Sanctioned env p.admin := by
  simp only [adminSet, requireAdmin, getAdmin, bind_ok, demand_ok, ensure_ok, requireAuth_ok,
    exists_const] at h
  obtain ⟨hauth, ⟨_, hadmin, rfl⟩, -⟩ := h
  exact sanctioned_of_auth hadmin hauth

theorem lift_sanctioned {r : Except Failure Storage} (h : s.lift r = .ok s')
    (hr : ∀ p, r = .ok p → Sanctioned env s.line.admin) : Sanctioned env s.line.admin := by
  obtain ⟨p, hp, -⟩ := map_ok.mp h
  exact hr p hp

theorem createLoan_settings {r : LoanRequest} {id : Nat}
    (h : createLoan c env r s = .ok (id, s')) : s'.line.settings = s.line.settings := by
  simp only [createLoan, bind_ok, pure_ok, increaseUserActiveDebt_ok, enterNonReentrant_ok] at h
  obtain ⟨_, -, _, -, _, -, _, -, score, -, _, -, _, ⟨-, rfl⟩, built, hbuilt, _, ⟨-, rfl⟩, line,
    hline, _, -, w, -, hres⟩ := h
  obtain ⟨-, -, -, -, -, hbuilt₂⟩ := buildLoan_spec (by decide) hbuilt
  obtain ⟨pages, counts, rfl⟩ := writeLoan_spec hline
  obtain ⟨rfl, rfl⟩ := Prod.mk.injEq .. ▸ hres
  rw [hbuilt₂]
  rfl

theorem requestLoan_settings {r : LoanRequest} {id : Nat}
    (h : requestLoan c env r s = .ok (id, s')) : s'.line.settings = s.line.settings := by
  simp only [requestLoan, bind_ok, pure_ok] at h
  obtain ⟨_, -, _, -, _, -, score, -, built, hbuilt, w, -, line, hline, hres⟩ := h
  obtain ⟨-, -, -, -, -, hbuilt₂⟩ := buildLoan_spec (by decide) hbuilt
  obtain ⟨pages, counts, rfl⟩ := writeLoan_spec hline
  obtain ⟨rfl, rfl⟩ := Prod.mk.injEq .. ▸ hres
  rw [hbuilt₂]
  rfl

/-- Every call leaves the settings alone or is the administrator's. -/
theorem exec_settings (hb : s.line.book.Sound) (h : exec c env call s = .ok s') :
    s'.line.settings = s.line.settings ∨ Sanctioned env s.line.admin := by
  cases call with
  | createLoan r =>
    obtain ⟨⟨id, s₁⟩, h₁, rfl⟩ := map_ok.mp h
    exact .inl (createLoan_settings h₁)
  | requestLoan r =>
    obtain ⟨⟨id, s₁⟩, h₁, rfl⟩ := map_ok.mp h
    exact .inl (requestLoan_settings h₁)
  | approveLoan loanId =>
    obtain ⟨⟨approved, s₁⟩, h₁, rfl⟩ := map_ok.mp h
    obtain ⟨loan, -, -, -, -, hline⟩ := approveLoan_spec hb h₁
    left
    rw [hline]
    rfl
  | cancelLoan caller loanId =>
    obtain ⟨loan, -, -, -, hline⟩ := cancelLoan_spec hb h
    left
    rw [hline]
    rfl
  | repayLoan borrower loanId amount =>
    obtain ⟨⟨r, s₁⟩, h₁, rfl⟩ := map_ok.mp h
    obtain ⟨-, loan, -, -, -, -, -, -, -, -, -, -, -, -, hline⟩ := (settle_ok hb).mp h₁
    left
    rw [hline]
    rfl
  | repayInstallment borrower loanId index amount =>
    obtain ⟨⟨r, s₁⟩, h₁, rfl⟩ := map_ok.mp h
    obtain ⟨-, loan, -, -, -, -, -, -, -, -, -, -, -, -, hline⟩ := (settle_ok hb).mp h₁
    left
    rw [hline]
    rfl
  | applyLateFees loanId =>
    left
    obtain ⟨loan, -, -, -, -, ⟨hline, -⟩ | hline⟩ := applyLateFees_spec hb h
    · rw [hline]
    · rw [hline]
      rfl
  | warnGracePeriod loanId =>
    obtain ⟨_, -, rfl⟩ := map_ok.mp h
    exact .inl rfl
  | markDefaulted loanId =>
    obtain ⟨-, loan, -, -, -, -, -, -, hline⟩ := (markDefaulted_ok hb).mp h
    left
    rw [hline]
    rfl
  | initializeContract admin reputation registry pool token =>
    refine .inr (lift_sanctioned h fun p hp => ?_)
    simp only [initializeContract, bind_ok, pure_ok, ensure_ok, exists_const] at hp
    exact sanctioned_of_none hp.1
  | setAdmin newAdmin => exact .inr (lift_sanctioned h fun p => sanctioned_of_stored)
  | proposeUpgrade newWasmHash => exact .inr (lift_sanctioned h fun p => sanctioned_of_stored)
  | executeUpgrade newWasmHash => exact .inr (lift_sanctioned h fun p => sanctioned_of_stored)
  | upgrade newWasmHash => exact .inr (lift_sanctioned h fun p => sanctioned_of_stored)
  | setReputationContract => exact .inr (lift_sanctioned h fun p => adminSet_sanctioned)
  | setVendorRegistry => exact .inr (lift_sanctioned h fun p => adminSet_sanctioned)
  | setLiquidityPool => exact .inr (lift_sanctioned h fun p => adminSet_sanctioned)
  | setParametersContract => exact .inr (lift_sanctioned h fun p => adminSet_sanctioned)
  | pause => exact .inr (lift_sanctioned h fun p => adminSet_sanctioned)
  | unpause => exact .inr (lift_sanctioned h fun p => adminSet_sanctioned)

end Settings

end CreditLine

/-! ## The pool -/

namespace LiquidityPool

structure Settings where
  config : Config
  vendorRegistry : Option Address
  outflowCapBps : Nat
  merchantExposureCap : Int
  paused : Bool
  parametersContract : Option Address
  slot : UpgradeSlot

def Storage.settings (p : Storage) : Settings :=
  ⟨p.config, p.vendorRegistry, p.outflowCapBps, p.merchantExposureCap, p.paused,
    p.parametersContract, p.slot⟩

section Settings

variable {d : Deployment} {active : Address → Option Bool} {env : Env} {call : Call}
variable {s s' : State}

/-- The calls of providers and of the credit line change no setting. -/
theorem exec_settings_of_trade (h : exec d active env call s = .ok s') (hc : ¬call.Setter) :
    s'.pool.settings = s.pool.settings := by
  cases call with
  | deposit provider amount =>
    obtain ⟨⟨k, s₁⟩, h₁, rfl⟩ := map_ok.mp h
    obtain ⟨price, -, -, -, -, -, -, -, rfl⟩ := deposit_spec h₁
    rw [seedDeadShares_eq]
    rfl
  | withdraw provider amount =>
    obtain ⟨⟨r, s₁⟩, h₁, rfl⟩ := map_ok.mp h
    obtain ⟨price, -, -, -, -, -, -, -, -, rfl⟩ := withdraw_spec h₁
    rfl
  | fundLoan =>
    obtain ⟨-, -, -, -, -, _, _, _, rfl⟩ := fundLoan_spec h
    rfl
  | receiveRepayment =>
    obtain ⟨-, -, -, -, -, -, rfl⟩ := receiveRepayment_spec h
    rfl
  | receiveGuarantee =>
    obtain ⟨-, -, -, -, -, -, -, -, -, -, rfl⟩ := receiveGuarantee_ok.mp h
    rfl
  | absorbLoss =>
    obtain ⟨-, -, -, -, -, -, -, rfl⟩ := absorbLoss_ok.mp h
    rfl
  | distributeInterest =>
    obtain ⟨-, -, -, -, -, rfl⟩ := distributeInterest_spec h
    rfl
  | accumulateInterest =>
    obtain ⟨-, -, -, -, -, rfl⟩ := distributeInterest_spec h
    rfl
  | _ => exact absurd trivial hc

theorem exec_sanctioned (h : exec d active env call s = .ok s') (hc : call.Setter) :
    Sanctioned env s.pool.admin := by
  cases call with
  | initializeContract => exact sanctioned_of_none (initializeContract_spec (lift_spec h).1).1
  | setCreditline => exact sanctioned_of_caller (lift_spec h).1
  | setTreasury => exact sanctioned_of_caller (lift_spec h).1
  | setMerchantFund => exact sanctioned_of_caller (lift_spec h).1
  | setVendorRegistry => exact sanctioned_of_caller (lift_spec h).1
  | pause => exact sanctioned_of_caller (lift_spec h).1
  | unpause => exact sanctioned_of_caller (lift_spec h).1
  | setOutflowCapBps => exact sanctioned_of_caller (lift_spec h).1
  | setMerchantExposureCap => exact sanctioned_of_caller (lift_spec h).1
  | setAdmin => exact sanctioned_of_stored (lift_spec h).1
  | setParametersContract => exact sanctioned_of_stored (lift_spec h).1
  | proposeUpgrade => exact sanctioned_of_stored (lift_spec h).1
  | executeUpgrade => exact sanctioned_of_stored (lift_spec h).1
  | upgrade => exact sanctioned_of_stored (lift_spec h).1
  | _ => exact hc.elim

theorem exec_settings (h : exec d active env call s = .ok s') :
    s'.pool.settings = s.pool.settings ∨ Sanctioned env s.pool.admin := by
  by_cases hc : call.Setter
  · exact .inr (exec_sanctioned h hc)
  · exact .inl (exec_settings_of_trade h hc)

end Settings

end LiquidityPool

/-! ## The reputation contract -/

namespace Reputation

structure Settings where
  admin : Option Address
  updaters : Address → Bool
  parametersContract : Option Address
  slot : UpgradeSlot

def Storage.settings (p : Storage) : Settings := ⟨p.admin, p.updaters, p.parametersContract, p.slot⟩

variable {env : Env} {call : Call} {p p' : Storage} {updater user : Address} {amount : Nat}

theorem raise_settings (h : raise env updater user amount p = .ok p') :
    p'.settings = p.settings := by
  obtain ⟨-, -, -, -, rfl⟩ := raise_ok.mp h
  rfl

theorem lower_settings (h : lower env updater user amount p = .ok p') :
    p'.settings = p.settings := by
  simp only [lower, bind_ok, pure_ok, enterNonReentrant_ok] at h
  obtain ⟨_, -, _, -, _, ⟨-, rfl⟩, score, -, rfl⟩ := h
  rfl

/-- Every call leaves the settings alone or is the administrator's. -/
theorem exec_settings (h : exec env call p = .ok p') :
    p'.settings = p.settings ∨ Sanctioned env p.admin := by
  cases call with
  | increaseScore => exact .inl (raise_settings h)
  | addBoost => exact .inl (raise_settings h)
  | decreaseScore => exact .inl (lower_settings h)
  | removeBoost => exact .inl (lower_settings h)
  | setScore updater user score =>
    simp only [exec, setScore, bind_ok, pure_ok, enterNonReentrant_ok] at h
    obtain ⟨_, -, _, -, _, -, _, ⟨-, rfl⟩, rfl⟩ := h
    exact .inl rfl
  | initializeContract admin =>
    simp only [exec, initializeContract, bind_ok, ensure_ok, requireAuth_ok, exists_const] at h
    exact .inr (sanctioned_of_none h.2.1)
  | setAdmin newAdmin => exact .inr (sanctioned_of_stored h)
  | setUpdater admin updater allowed => exact .inr (sanctioned_of_caller h)
  | setParametersContract address => exact .inr (sanctioned_of_stored h)
  | proposeUpgrade getParameters newWasmHash => exact .inr (sanctioned_of_stored h)
  | executeUpgrade newWasmHash => exact .inr (sanctioned_of_stored h)
  | upgrade newWasmHash => exact .inr (sanctioned_of_stored h)

end Reputation

/-! ## The registry, the vouching contract and the parameters contract -/

/-- Every call of the registry is the administrator's. -/
theorem VendorRegistry.exec_sanctioned {env : Env} {call : Call} {p p' : Storage}
    (h : exec env call p = .ok p') : Sanctioned env p.admin := by
  have status : ∀ {admin vendor check status}, setStatus env admin vendor check status p = .ok p' →
      Sanctioned env p.admin := by
    intro admin vendor check status h
    simp only [setStatus, requireAdmin, getAdmin, bind_ok, ensure_ok, demand_ok, requireAuth_ok,
      exists_const] at h
    obtain ⟨-, ⟨hauth, _, hadmin, rfl⟩, -⟩ := h
    exact sanctioned_of_auth hadmin hauth
  cases call with
  | initializeContract =>
    simp only [exec, initializeContract, bind_ok, ensure_ok, requireAuth_ok, exists_const] at h
    exact sanctioned_of_none h.2.1
  | registerVendor =>
    simp only [exec, registerVendor, requireAdmin, getAdmin, bind_ok, ensure_ok, demand_ok,
      requireAuth_ok, exists_const] at h
    obtain ⟨-, ⟨hauth, _, hadmin, rfl⟩, -⟩ := h
    exact sanctioned_of_auth hadmin hauth
  | approveVendor => exact status h
  | suspendVendor => exact status h
  | deactivateVendor => exact status h
  | activateVendor => exact status h
  | setVendorStatus => exact status h
  | setParametersContract => exact sanctioned_of_stored h
  | proposeUpgrade => exact sanctioned_of_stored h
  | executeUpgrade => exact sanctioned_of_stored h
  | upgrade => exact sanctioned_of_stored h

namespace Vouching

structure Settings where
  admin : Option Address
  reputationContract : Option Address
  vouchBoost : Option Nat
  mentors : Address → Bool
  version : Nat

def Storage.settings (p : Storage) : Settings :=
  ⟨p.admin, p.reputationContract, p.vouchBoost, p.mentors, p.version⟩

theorem exec_settings {W : Type} {c : Clients W} {env : Env} {call : Call} {s s' : State W}
    (h : exec c env call s = .ok s') :
    s'.vouching.settings = s.vouching.settings ∨ Sanctioned env s.vouching.admin := by
  have heffect := exec_effect h
  cases call with
  | initializeContract =>
    simp only [exec, onStorage, initializeContract, bind_ok, ensure_ok, exists_const] at h
    obtain ⟨_, ⟨_, -, hadmin, -⟩, -⟩ := h
    exact .inr (sanctioned_of_none hadmin)
  | setMentor =>
    simp only [exec, onStorage, bind_ok] at h
    obtain ⟨p, hp, -⟩ := h
    exact .inr (sanctioned_of_caller hp)
  | upgrade =>
    simp only [exec, onStorage, bind_ok] at h
    obtain ⟨p, hp, -⟩ := h
    exact .inr (sanctioned_of_stored hp)
  | vouch =>
    cases heffect with
    | vouched hlends =>
      left
      rw [hlends.lent]
      rfl
    | removed hcall => simp at hcall
  | revokeVouch =>
    cases heffect with
    | removed _ _ _ hw =>
      left
      rw [hw.withdrawn]
      rfl
  | expireVouch =>
    cases heffect with
    | removed _ _ _ hw =>
      left
      rw [hw.withdrawn]
      rfl
    | settled => exact .inl rfl

end Vouching

namespace Parameters

structure Settings where
  admin : Option Address
  params : Option ProtocolParameters
  multisig : Option MultisigConfig
  pendingMultisig : Option MultisigConfig
  version : Nat

def Storage.settings (p : Storage) : Settings :=
  ⟨p.admin, p.params, p.multisig, p.pendingMultisig, p.version⟩

/-- The governed settings move by executions, or while the administrator sets the
contract up. -/
theorem Step.settings {p p' : Storage} {l : Label} (hs : p.Sound) (h : Step p l p') :
    p'.settings = p.settings ∨ Sanctioned l.env p.admin ∨ ∃ id, l.call = .execute id := by
  have hchange := h.change hs
  obtain ⟨env, call⟩ := l
  cases hchange with
  | setUp admin params hcall hnone => exact .inr (.inl (sanctioned_of_none hnone))
  | configure admin config hadmin hauth => exact .inr (.inl (sanctioned_of_auth hadmin hauth))
  | confirm admin config hadmin hauth => exact .inr (.inl (sanctioned_of_auth hadmin hauth))
  | propose => exact .inl rfl
  | approve => exact .inl rfl
  | execute x => exact .inr (.inr ⟨x.id, rfl⟩)

end Parameters

/-! ## The network -/

namespace Network

variable {n : Site} {s s' s₀ : State} {l : Label} {tr : List (State × Label)}

/-- Part of what the contracts store, and the steps that may change it. -/
structure Office (σ : Type) where
  settings : State → σ
  permits : State → Label → Prop

/-- Over a run none of whose steps is permitted to, the settings do not change. -/
def Office.Guarded {σ : Type} (o : Office σ) (tr : List (State × Label)) (s₀ s : State) : Prop :=
  (∀ x ∈ tr, ¬o.permits x.1 x.2) → o.settings s = o.settings s₀

theorem Office.guarded {σ : Type} (o : Office σ) (h : Run (Step n) s₀ tr s)
    (h0 : Reachable Deployed (Step n) s₀)
    (hstep : ∀ s l s', Reachable Deployed (Step n) s → Step n s l s' →
      o.settings s' = o.settings s ∨ o.permits s l) : o.Guarded tr s₀ s := by
  intro hno
  induction h with
  | nil => rfl
  | @snoc tr t u l hr hs ih =>
    have hlast : ¬o.permits t l := hno (t, l) (by simp)
    have hbefore := ih fun x hx => hno x (List.mem_append_left _ hx)
    have hreach : Reachable Deployed (Step n) t := h0.run hr
    exact ((hstep t l u hreach hs).resolve_right hlast).trans hbefore

def lineOffice : Office CreditLine.Settings where
  settings := fun s => s.line.settings
  permits := fun s l => Sanctioned l.env s.line.admin

def poolOffice : Office LiquidityPool.Settings where
  settings := fun s => s.pool.settings
  permits := fun s l => Sanctioned l.env s.pool.admin

def reputationOffice : Office Reputation.Settings where
  settings := fun s => s.reputation.settings
  permits := fun s l => Sanctioned l.env s.reputation.admin

/-- The registry is all settings. -/
def registryOffice : Office VendorRegistry.Storage where
  settings := fun s => s.registry
  permits := fun s l => Sanctioned l.env s.registry.admin

def vouchingOffice : Office Vouching.Settings where
  settings := fun s => s.vouching.settings
  permits := fun s l => Sanctioned l.env s.vouching.admin

def governanceOffice : Office Parameters.Settings where
  settings := fun s => s.governance.settings
  permits := fun s l => Sanctioned l.env s.governance.admin ∨
    ∃ id, l.action = .governance (.execute id)

/-! ### What one step changes -/

/-- The credit line's own calls change no setting of the pool or of the reputation
contract. -/
theorem flow_settings {env : Env} {p : CreditLine.Storage} {w w' : Protocol.World}
    {e : CreditLine.Event} (h : CreditLine.Flow (Protocol.clients n.core) env p w w' e) :
    w'.pool.settings = w.pool.settings ∧ w'.reputation.settings = w.reputation.settings := by
  refine Protocol.Keeping.flow (Q := fun w w' => w'.pool.settings = w.pool.settings ∧
    w'.reputation.settings = w.reputation.settings) ?_ h
  exact {
    nothing := fun w => ⟨rfl, rfl⟩
    both := fun h h' => ⟨h'.1.trans h.1, h'.2.trans h.2⟩
    transfer := fun h => by
      obtain ⟨-, -, -, -, rfl⟩ := Protocol.transfer_ok.mp h
      exact ⟨rfl, rfl⟩
    pool := fun {_ c _ _} hc h => by
      have htrade : ¬c.Setter := by
        intro hset
        cases c <;> first | exact hc | exact hset
      exact ⟨LiquidityPool.exec_settings_of_trade h htrade, rfl⟩
    reputation := fun {_ c _ _} hc h => by
      cases c with
      | increaseScore => exact ⟨rfl, Reputation.raise_settings h⟩
      | decreaseScore => exact ⟨rfl, Reputation.lower_settings h⟩
      | _ => exact hc.elim }

theorem boost_settings {env : Env} {update : Reputation.Call} {p p' : Reputation.Storage}
    (hb : Boosts update) (h : Reputation.exec env update p = .ok p') :
    p'.settings = p.settings := by
  cases update with
  | addBoost => exact Reputation.raise_settings h
  | removeBoost => exact Reputation.lower_settings h
  | _ => exact hb.elim

theorem line_step (h : Reachable Deployed (Step n) s) (hs : Step n s l s') :
    lineOffice.settings s' = lineOffice.settings s ∨ lineOffice.permits s l := by
  have heffect := hs.effect
  obtain ⟨env, action⟩ := l
  cases heffect with
  | line hexec => exact CreditLine.exec_settings (invariant_of_reachable h).book hexec
  | _ => exact .inl rfl

theorem pool_step (h : Reachable Deployed (Step n) s) (hs : Step n s l s') :
    poolOffice.settings s' = poolOffice.settings s ∨ poolOffice.permits s l := by
  have heffect := hs.effect
  obtain ⟨env, action⟩ := l
  cases heffect with
  | line hexec =>
    obtain ⟨e, he⟩ := CreditLine.exec_effect (invariant_of_reachable h).book hexec
    exact .inl (flow_settings he.flow).1
  | pool hexec => exact LiquidityPool.exec_settings hexec
  | _ => exact .inl rfl

theorem reputation_step (h : Reachable Deployed (Step n) s) (hs : Step n s l s') :
    reputationOffice.settings s' = reputationOffice.settings s ∨ reputationOffice.permits s l := by
  have heffect := hs.effect
  obtain ⟨env, action⟩ := l
  cases heffect with
  | line hexec =>
    obtain ⟨e, he⟩ := CreditLine.exec_effect (invariant_of_reachable h).book hexec
    exact .inl (flow_settings he.flow).2
  | reputation hexec => exact Reputation.exec_settings hexec
  | vouching hexec =>
    left
    rcases vouching_update hexec with hsame | ⟨update, hboosts, hupdate⟩
    · exact congrArg Reputation.Storage.settings hsame
    · exact boost_settings hboosts hupdate
  | _ => exact .inl rfl

theorem registry_step (hs : Step n s l s') :
    registryOffice.settings s' = registryOffice.settings s ∨ registryOffice.permits s l := by
  have heffect := hs.effect
  obtain ⟨env, action⟩ := l
  cases heffect with
  | registry hexec => exact .inr (VendorRegistry.exec_sanctioned hexec)
  | _ => exact .inl rfl

theorem vouching_step (hs : Step n s l s') :
    vouchingOffice.settings s' = vouchingOffice.settings s ∨ vouchingOffice.permits s l := by
  have heffect := hs.effect
  obtain ⟨env, action⟩ := l
  cases heffect with
  | vouching hexec => exact Vouching.exec_settings hexec
  | _ => exact .inl rfl

theorem governance_step (h : Reachable Deployed (Step n) s) (hs : Step n s l s') :
    governanceOffice.settings s' = governanceOffice.settings s ∨
      governanceOffice.permits s l := by
  have heffect := hs.effect
  obtain ⟨env, action⟩ := l
  cases heffect with
  | @governance call g hexec =>
    have hstep : Parameters.Step s.governance ⟨env, call⟩ g := hexec
    rcases hstep.settings (governance_sound h) with hsame | hadmin | ⟨id, hcall⟩
    · exact .inl hsame
    · exact .inr (.inl hadmin)
    · exact .inr (.inr ⟨id, congrArg Action.governance hcall⟩)
  | _ => exact .inl rfl

/-- Over every run, each contract keeps its settings unless a step of the run is
authorised by its administrator at that moment; those of the parameters contract
move by executed proposals as well. -/
theorem settings_need_admin (h : Run (Step n) s₀ tr s) (h0 : Reachable Deployed (Step n) s₀) :
    lineOffice.Guarded tr s₀ s ∧ poolOffice.Guarded tr s₀ s ∧
    reputationOffice.Guarded tr s₀ s ∧ registryOffice.Guarded tr s₀ s ∧
    vouchingOffice.Guarded tr s₀ s ∧ governanceOffice.Guarded tr s₀ s :=
  ⟨lineOffice.guarded h h0 fun _ _ _ => line_step, poolOffice.guarded h h0 fun _ _ _ => pool_step,
    reputationOffice.guarded h h0 fun _ _ _ => reputation_step,
    registryOffice.guarded h h0 fun _ _ _ _ => registry_step,
    vouchingOffice.guarded h h0 fun _ _ _ _ => vouching_step,
    governanceOffice.guarded h h0 fun _ _ _ => governance_step⟩

/-- A borrower, a provider, a mentor and a score updater at work. -/
theorem settings_need_admin_sample : ∃ s₀ s : State,
    s₀.line.loanCounter = 0 ∧ s.line.loanCounter = 1 ∧
    s.line.settings = s₀.line.settings ∧ s.pool.settings = s₀.pool.settings ∧
    s.reputation.settings = s₀.reputation.settings ∧ s.registry = s₀.registry ∧
    s.vouching.settings = s₀.vouching.settings := by
  have hbefore : (replay (take .sample) sampleStart setUp).toOption.map
      (fun r => (r.2.line.loanCounter, (replay (take .sample) r.2
        (prepare ++ [openLoan 21, repay 21 1 1070])).toOption.map fun q =>
          (q.2.line.loanCounter, decide (∀ x ∈ q.1,
            ¬Sanctioned x.2.env x.1.line.admin ∧ ¬Sanctioned x.2.env x.1.pool.admin ∧
            ¬Sanctioned x.2.env x.1.reputation.admin ∧ ¬Sanctioned x.2.env x.1.registry.admin ∧
            ¬Sanctioned x.2.env x.1.vouching.admin)))) = some (0, some (1, true)) := by
    decide +kernel
  obtain ⟨tr₀, s₀, hr₀, hobs⟩ := replay_observed hbefore
  obtain ⟨hnone, hafter⟩ := Prod.mk.injEq .. ▸ hobs
  obtain ⟨tr, s, hr, hobs⟩ := replay_observed hafter
  obtain ⟨hone, hquiet⟩ := Prod.mk.injEq .. ▸ hobs
  have hno := of_decide_eq_true hquiet
  have hrun₀ : Run (Step .sample) sampleStart tr₀ s₀ := run_of_replay (by decide +kernel) hr₀
  have hrun : Run (Step .sample) s₀ tr s := run_of_replay (by decide +kernel) hr
  obtain ⟨hline, hpool, hreputation, hregistry, hvouching, -⟩ :=
    settings_need_admin hrun (hrun₀.reachable sampleStart_deployed)
  exact ⟨s₀, s, hnone, hone, hline fun x hx => (hno x hx).1, hpool fun x hx => (hno x hx).2.1,
    hreputation fun x hx => (hno x hx).2.2.1, hregistry fun x hx => (hno x hx).2.2.2.1,
    hvouching fun x hx => (hno x hx).2.2.2.2⟩

end Network

end StepFi

import StepFi.CreditLine.Runs
import StepFi.LiquidityPool.Accounts
import StepFi.Reputation.Contract
import StepFi.VendorRegistry.Contract

/-!
# Timelocked upgrades

The four contracts that carry the timelock, each seen through its upgrade slot:
only a proposal fills it and only an execution empties it (`steps`), whatever
else is called. What that means for a run is `Timelock.Kept.respected`.
-/

namespace StepFi

open Lib

/-! ## The credit line -/

namespace CreditLine

def Storage.slot (p : Storage) : UpgradeSlot := ⟨p.pendingUpgrade, p.version⟩

def Call.upgradeCall : Call → Option UpgradeCall
  | .proposeUpgrade newWasmHash => some (.propose newWasmHash)
  | .executeUpgrade newWasmHash => some (.execute newWasmHash)
  | .upgrade newWasmHash => some (.execute newWasmHash)
  | _ => none

section Slot

variable {W : Type} {c : Clients W} {env : Env} {call : Call} {s s' : State W}
variable {newWasmHash : WasmHash}

theorem proposeUpgrade_ok {p' : Storage} :
    proposeUpgrade c env newWasmHash s = .ok p' ↔
      let delay := upgradeDelay (getProtocolParameters c s.line s.world).upgradeDelaySeconds
      (∃ admin, s.line.admin = some admin ∧ env.auths admin = true) ∧
        env.timestamp + delay < 2 ^ 64 ∧
        p' = { s.line with
          pendingUpgrade := some ⟨newWasmHash, env.timestamp, env.timestamp + delay⟩ } :=
  proposal_ok

theorem executeUpgrade_slot {p p' : Storage} (h : executeUpgrade env newWasmHash p = .ok p') :
    (∃ q, p.slot.pending = some q ∧ q.wasmHash = newWasmHash ∧ q.unlockAt ≤ env.timestamp) ∧
      p'.slot = ⟨none, p.slot.version + 1⟩ := by
  simp only [executeUpgrade, bind_ok, pure_ok, PendingUpgrade.execute_ok] at h
  obtain ⟨_, -, _, -, _, ⟨-, rfl, hpending⟩, _, -, rfl⟩ := h
  exact ⟨hpending, rfl⟩

theorem createLoan_slot {r : LoanRequest} {id : Nat} (h : createLoan c env r s = .ok (id, s')) :
    s'.line.slot = s.line.slot := by
  simp only [createLoan, bind_ok, pure_ok, increaseUserActiveDebt_ok, enterNonReentrant_ok] at h
  obtain ⟨_, -, _, -, _, -, _, -, score, -, _, -, _, ⟨-, rfl⟩, built, hbuilt, _, ⟨-, rfl⟩, line,
    hline, _, -, w, -, hres⟩ := h
  obtain ⟨-, -, -, -, -, hbuilt₂⟩ := buildLoan_spec (by decide) hbuilt
  obtain ⟨pages, counts, rfl⟩ := writeLoan_spec hline
  obtain ⟨rfl, rfl⟩ := Prod.mk.injEq .. ▸ hres
  rw [hbuilt₂]
  rfl

theorem requestLoan_slot {r : LoanRequest} {id : Nat} (h : requestLoan c env r s = .ok (id, s')) :
    s'.line.slot = s.line.slot := by
  simp only [requestLoan, bind_ok, pure_ok] at h
  obtain ⟨_, -, _, -, _, -, score, -, built, hbuilt, w, -, line, hline, hres⟩ := h
  obtain ⟨-, -, -, -, -, hbuilt₂⟩ := buildLoan_spec (by decide) hbuilt
  obtain ⟨pages, counts, rfl⟩ := writeLoan_spec hline
  obtain ⟨rfl, rfl⟩ := Prod.mk.injEq .. ▸ hres
  rw [hbuilt₂]
  rfl

theorem lift_slot {r : Except Failure Storage} (h : s.lift r = .ok s')
    (hkeep : ∀ p, r = .ok p → p.slot = s.line.slot) : s'.line.slot = s.line.slot := by
  obtain ⟨p, hp, rfl⟩ := map_ok.mp h
  exact hkeep p hp

theorem adminSet_slot {admin : Address} {write : Storage → Storage}
    (h : s.lift (adminSet env admin write s.line) = .ok s')
    (hw : (write s.line).slot = s.line.slot) : s'.line.slot = s.line.slot :=
  lift_slot h fun p hp => by rw [adminSet_spec hp, hw]

/-- No other call touches the slot. -/
theorem exec_slot (hb : s.line.book.Sound) (h : exec c env call s = .ok s')
    (hc : call.upgradeCall = none) : s'.line.slot = s.line.slot := by
  cases call with
  | createLoan r =>
    obtain ⟨⟨id, s₁⟩, h₁, rfl⟩ := map_ok.mp h
    exact createLoan_slot h₁
  | requestLoan r =>
    obtain ⟨⟨id, s₁⟩, h₁, rfl⟩ := map_ok.mp h
    exact requestLoan_slot h₁
  | approveLoan loanId =>
    obtain ⟨⟨approved, s₁⟩, h₁, rfl⟩ := map_ok.mp h
    obtain ⟨loan, -, -, -, -, hline⟩ := approveLoan_spec hb h₁
    rw [hline]
    rfl
  | cancelLoan caller loanId =>
    obtain ⟨loan, -, -, -, hline⟩ := cancelLoan_spec hb h
    rw [hline]
    rfl
  | repayLoan borrower loanId amount =>
    obtain ⟨⟨r, s₁⟩, h₁, rfl⟩ := map_ok.mp h
    obtain ⟨-, loan, -, -, -, -, -, -, -, -, -, -, -, -, hline⟩ := (settle_ok hb).mp h₁
    rw [hline]
    rfl
  | repayInstallment borrower loanId index amount =>
    obtain ⟨⟨r, s₁⟩, h₁, rfl⟩ := map_ok.mp h
    obtain ⟨-, loan, -, -, -, -, -, -, -, -, -, -, -, -, hline⟩ := (settle_ok hb).mp h₁
    rw [hline]
    rfl
  | applyLateFees loanId =>
    obtain ⟨loan, -, -, -, -, ⟨hline, -⟩ | hline⟩ := applyLateFees_spec hb h
    · rw [hline]
    · rw [hline]
      rfl
  | markDefaulted loanId =>
    obtain ⟨-, loan, -, -, -, -, -, -, hline⟩ := (markDefaulted_ok hb).mp h
    rw [hline]
    rfl
  | initializeContract admin reputation registry pool token =>
    refine lift_slot h fun p hp => ?_
    simp only [initializeContract, bind_ok, pure_ok] at hp
    obtain ⟨_, -, _, -, rfl⟩ := hp
    rfl
  | setAdmin newAdmin =>
    refine lift_slot h fun p hp => ?_
    simp only [setAdmin, bind_ok, pure_ok] at hp
    obtain ⟨_, -, _, -, _, -, rfl⟩ := hp
    rfl
  | setReputationContract admin address => exact adminSet_slot h rfl
  | setVendorRegistry admin address => exact adminSet_slot h rfl
  | setLiquidityPool admin address => exact adminSet_slot h rfl
  | setParametersContract admin address => exact adminSet_slot h rfl
  | pause admin => exact adminSet_slot h rfl
  | unpause admin => exact adminSet_slot h rfl
  | warnGracePeriod loanId =>
    obtain ⟨_, -, rfl⟩ := map_ok.mp h
    rfl
  | proposeUpgrade newWasmHash => simp [Call.upgradeCall] at hc
  | executeUpgrade newWasmHash => simp [Call.upgradeCall] at hc
  | upgrade newWasmHash => simp [Call.upgradeCall] at hc

end Slot

theorem Call.upgradeCall_propose {call : Call} {newWasmHash : WasmHash}
    (h : call.upgradeCall = some (.propose newWasmHash)) : call = .proposeUpgrade newWasmHash := by
  cases call <;> simp_all [upgradeCall]

theorem Call.upgradeCall_execute {call : Call} {newWasmHash : WasmHash}
    (h : call.upgradeCall = some (.execute newWasmHash)) :
    call = .executeUpgrade newWasmHash ∨ call = .upgrade newWasmHash := by
  cases call <;> simp_all [upgradeCall]

def asked {W : Type} : Label W → Option (Env × UpgradeCall)
  | .call env call => call.upgradeCall.map (env, ·)
  | .world _ => none

theorem asked_some {W : Type} {l : Label W} {env : Env} {upgradeCall : UpgradeCall}
    (h : asked l = some (env, upgradeCall)) :
    ∃ call, l = .call env call ∧ call.upgradeCall = some upgradeCall := by
  cases l with
  | world w => simp [asked] at h
  | call env' call =>
    obtain ⟨_, hcall, heq⟩ := Option.map_eq_some_iff.mp h
    obtain ⟨rfl, rfl⟩ := Prod.mk.injEq .. ▸ heq
    exact ⟨call, rfl, hcall⟩

def upgradeView {W : Type} (c : Clients W) : UpgradeView (State W) (Label W) where
  slot := fun s => s.line.slot
  admin := fun s => s.line.admin
  asked := asked
  delay := fun s _ => upgradeDelay (getProtocolParameters c s.line s.world).upgradeDelaySeconds

/-- The upgrade steps of a run of the contract. -/
theorem upgradeView_steps {W : Type} (c : Clients W) :
    (upgradeView c).Steps fun s l s' => Reachable Deployed (Step c) s ∧ Step c s l s' where
  propose := by
    intro s l s' env newWasmHash hs hasked
    obtain ⟨call, rfl, hcall⟩ := asked_some hasked
    obtain rfl := Call.upgradeCall_propose hcall
    obtain ⟨p, hp, rfl⟩ := map_ok.mp hs.2
    obtain ⟨hauth, -, rfl⟩ := proposeUpgrade_ok.mp hp
    exact ⟨hauth, upgradeDelay_pos _, rfl⟩
  execute := by
    intro s l s' env newWasmHash hs hasked
    obtain ⟨call, rfl, hcall⟩ := asked_some hasked
    rcases Call.upgradeCall_execute hcall with rfl | rfl
    · obtain ⟨p, hp, rfl⟩ := map_ok.mp hs.2
      exact executeUpgrade_slot hp
    · obtain ⟨p, hp, rfl⟩ := map_ok.mp hs.2
      exact executeUpgrade_slot hp
  frame := by
    intro s l s' hs hasked
    cases l with
    | world w =>
      cases hs.2
      rfl
    | call env call =>
      exact exec_slot (sound_of_reachable hs.1) hs.2 (Option.map_eq_none_iff.mp hasked)

end CreditLine

/-! ## The pool -/

namespace LiquidityPool

def Storage.slot (p : Storage) : UpgradeSlot := ⟨p.pendingUpgrade, p.version⟩

def Call.upgradeCall : Call → Option UpgradeCall
  | .proposeUpgrade _ newWasmHash => some (.propose newWasmHash)
  | .executeUpgrade newWasmHash => some (.execute newWasmHash)
  | .upgrade newWasmHash => some (.execute newWasmHash)
  | _ => none

section Slot

variable {d : Deployment} {active : Address → Option Bool} {env : Env} {call : Call}
variable {s s' : State} {p p' : Storage} {newWasmHash : WasmHash}
variable {getParameters : Address → Reply ProtocolParameters}

theorem proposeUpgrade_ok :
    proposeUpgrade getParameters env newWasmHash p = .ok p' ↔
      (∃ admin, p.admin = some admin ∧ env.auths admin = true) ∧
        ∃ delay, getUpgradeDelaySeconds getParameters p = .ok delay ∧
          env.timestamp + delay < 2 ^ 64 ∧
          p' = { p with
            pendingUpgrade := some ⟨newWasmHash, env.timestamp, env.timestamp + delay⟩ } :=
  proposal_reads_ok

theorem executeUpgrade_slot (h : executeUpgrade env newWasmHash p = .ok p') :
    (∃ q, p.slot.pending = some q ∧ q.wasmHash = newWasmHash ∧ q.unlockAt ≤ env.timestamp) ∧
      p'.slot = ⟨none, p.slot.version + 1⟩ := by
  simp only [executeUpgrade, bind_ok, pure_ok, PendingUpgrade.execute_ok] at h
  obtain ⟨_, -, _, -, _, ⟨-, rfl, hpending⟩, _, -, rfl⟩ := h
  exact ⟨hpending, rfl⟩

theorem adminSet_slot {admin : Address} {write : Storage → Storage}
    (h : s.lift (adminSet env admin write s.pool) = .ok s')
    (hw : (write s.pool).slot = s.pool.slot) : s'.pool.slot = s.pool.slot := by
  rw [(adminSet_spec (lift_spec h).1).2.2, hw]

/-- No other call touches the slot. -/
theorem exec_slot (h : exec d active env call s = .ok s') (hc : call.upgradeCall = none) :
    s'.pool.slot = s.pool.slot := by
  cases call with
  | deposit provider amount =>
    obtain ⟨⟨k, s₁⟩, h₁, rfl⟩ := map_ok.mp h
    obtain ⟨price, -, -, -, -, -, -, -, rfl⟩ := deposit_spec h₁
    rw [seedDeadShares_eq]
    rfl
  | withdraw provider amount =>
    obtain ⟨⟨r, s₁⟩, h₁, rfl⟩ := map_ok.mp h
    obtain ⟨price, -, -, -, -, -, -, -, -, rfl⟩ := withdraw_spec h₁
    rfl
  | fundLoan =>
    obtain ⟨-, -, -, -, -, _, _, _, rfl⟩ := fundLoan_spec h
    rfl
  | receiveRepayment =>
    obtain ⟨-, -, -, -, -, -, rfl⟩ := receiveRepayment_spec h
    rfl
  | receiveGuarantee =>
    obtain ⟨-, -, -, -, -, -, -, -, -, -, rfl⟩ := receiveGuarantee_ok.mp h
    rfl
  | absorbLoss =>
    obtain ⟨-, -, -, -, -, -, -, rfl⟩ := absorbLoss_ok.mp h
    rfl
  | distributeInterest =>
    obtain ⟨-, -, -, -, -, rfl⟩ := distributeInterest_spec h
    rfl
  | accumulateInterest =>
    obtain ⟨-, -, -, -, -, rfl⟩ := distributeInterest_spec h
    rfl
  | initializeContract =>
    rw [(initializeContract_spec (lift_spec h).1).2]
    rfl
  | setCreditline => exact adminSet_slot h rfl
  | setTreasury => exact adminSet_slot h rfl
  | setMerchantFund => exact adminSet_slot h rfl
  | setVendorRegistry => exact adminSet_slot h rfl
  | pause => exact adminSet_slot h rfl
  | unpause => exact adminSet_slot h rfl
  | setOutflowCapBps =>
    rw [setOutflowCapBps_spec (lift_spec h).1]
    rfl
  | setMerchantExposureCap =>
    rw [(setMerchantExposureCap_spec (lift_spec h).1).2]
    rfl
  | setAdmin =>
    rw [setAdmin_spec (lift_spec h).1]
    rfl
  | setParametersContract =>
    rw [setParametersContract_spec (lift_spec h).1]
    rfl
  | proposeUpgrade => simp [Call.upgradeCall] at hc
  | executeUpgrade => simp [Call.upgradeCall] at hc
  | upgrade => simp [Call.upgradeCall] at hc

end Slot

theorem Call.upgradeCall_propose {call : Call} {newWasmHash : WasmHash}
    (h : call.upgradeCall = some (.propose newWasmHash)) :
    ∃ getParameters, call = .proposeUpgrade getParameters newWasmHash := by
  cases call <;> simp_all [upgradeCall]

theorem Call.upgradeCall_execute {call : Call} {newWasmHash : WasmHash}
    (h : call.upgradeCall = some (.execute newWasmHash)) :
    call = .executeUpgrade newWasmHash ∨ call = .upgrade newWasmHash := by
  cases call <;> simp_all [upgradeCall]

def asked : Label → Option (Env × UpgradeCall)
  | .call _ env call => call.upgradeCall.map (env, ·)
  | .ledger _ => none

theorem asked_some {l : Label} {env : Env} {upgradeCall : UpgradeCall}
    (h : asked l = some (env, upgradeCall)) :
    ∃ active call, l = .call active env call ∧ call.upgradeCall = some upgradeCall := by
  cases l with
  | ledger token => simp [asked] at h
  | call active env' call =>
    obtain ⟨_, hcall, heq⟩ := Option.map_eq_some_iff.mp h
    obtain ⟨rfl, rfl⟩ := Prod.mk.injEq .. ▸ heq
    exact ⟨active, call, rfl, hcall⟩

/-- What a proposal reads, if the label is one. -/
def delayRead (p : Storage) : Label → Nat
  | .call _ _ (.proposeUpgrade getParameters _) =>
    (getUpgradeDelaySeconds getParameters p).toOption.getD 0
  | _ => 0

def upgradeView : UpgradeView State Label where
  slot := fun s => s.pool.slot
  admin := fun s => s.pool.admin
  asked := asked
  delay := fun s l => delayRead s.pool l

theorem upgradeView_steps (d : Deployment) : upgradeView.Steps (Step d) where
  propose := by
    intro s l s' env newWasmHash hs hasked
    obtain ⟨active, call, rfl, hcall⟩ := asked_some hasked
    obtain ⟨getParameters, rfl⟩ := Call.upgradeCall_propose hcall
    obtain ⟨p, hp, rfl⟩ := map_ok.mp hs
    obtain ⟨hauth, delay, hdelay, -, rfl⟩ := proposeUpgrade_ok.mp hp
    have hread : delayRead s.pool (.call active env (.proposeUpgrade getParameters newWasmHash))
        = delay := by
      simp only [delayRead, hdelay, Except.toOption, Option.getD_some]
    simp only [upgradeView, hread]
    exact ⟨hauth, readUpgradeDelay_pos hdelay, rfl⟩
  execute := by
    intro s l s' env newWasmHash hs hasked
    obtain ⟨active, call, rfl, hcall⟩ := asked_some hasked
    rcases Call.upgradeCall_execute hcall with rfl | rfl
    · obtain ⟨p, hp, rfl⟩ := map_ok.mp hs
      exact executeUpgrade_slot hp
    · obtain ⟨p, hp, rfl⟩ := map_ok.mp hs
      exact executeUpgrade_slot hp
  frame := by
    intro s l s' hs hasked
    cases l with
    | ledger token =>
      cases hs
      rfl
    | call active env call => exact exec_slot hs (Option.map_eq_none_iff.mp hasked)

end LiquidityPool

/-! ## The reputation contract -/

namespace Reputation

def Storage.slot (p : Storage) : UpgradeSlot := ⟨p.pendingUpgrade, p.version⟩

def Call.upgradeCall : Call → Option UpgradeCall
  | .proposeUpgrade _ newWasmHash => some (.propose newWasmHash)
  | .executeUpgrade newWasmHash => some (.execute newWasmHash)
  | .upgrade newWasmHash => some (.execute newWasmHash)
  | _ => none

section Slot

variable {env : Env} {call : Call} {p p' : Storage} {newWasmHash : WasmHash}
variable {getParameters : Address → Reply ProtocolParameters}

theorem proposeUpgrade_ok :
    proposeUpgrade getParameters env newWasmHash p = .ok p' ↔
      (∃ admin, p.admin = some admin ∧ env.auths admin = true) ∧
        ∃ delay, getUpgradeDelaySeconds getParameters p = .ok delay ∧
          env.timestamp + delay < 2 ^ 64 ∧
          p' = { p with
            pendingUpgrade := some ⟨newWasmHash, env.timestamp, env.timestamp + delay⟩ } :=
  proposal_reads_ok

theorem executeUpgrade_slot (h : executeUpgrade env newWasmHash p = .ok p') :
    (∃ q, p.slot.pending = some q ∧ q.wasmHash = newWasmHash ∧ q.unlockAt ≤ env.timestamp) ∧
      p'.slot = ⟨none, p.slot.version + 1⟩ := by
  simp only [executeUpgrade, bind_ok, pure_ok, demand_ok, ensure_ok, exists_const,
    enterNonReentrant_ok, checkedU32_ok] at h
  obtain ⟨_, -, _, -, q, hq, hhash, hunlock, _, ⟨-, rfl⟩, version, ⟨-, hversion⟩, _, -, rfl⟩ := h
  have hv : version = p.version + 1 := by
    have hversion' : (p.version : Int) + 1 = version := hversion
    omega
  subst hv
  exact ⟨⟨q, hq, hhash, hunlock⟩, rfl⟩

theorem raise_slot {updater user : Address} {amount : Nat}
    (h : raise env updater user amount p = .ok p') : p'.slot = p.slot := by
  obtain ⟨-, -, -, -, rfl⟩ := raise_ok.mp h
  rfl

theorem lower_slot {updater user : Address} {amount : Nat}
    (h : lower env updater user amount p = .ok p') : p'.slot = p.slot := by
  simp only [lower, bind_ok, pure_ok, enterNonReentrant_ok] at h
  obtain ⟨_, -, _, -, _, ⟨-, rfl⟩, _, -, rfl⟩ := h
  rfl

/-- No other call touches the slot. -/
theorem exec_slot (h : exec env call p = .ok p') (hc : call.upgradeCall = none) :
    p'.slot = p.slot := by
  cases call with
  | increaseScore => exact raise_slot h
  | addBoost => exact raise_slot h
  | decreaseScore => exact lower_slot h
  | removeBoost => exact lower_slot h
  | setScore updater user newScore =>
    simp only [exec, setScore, bind_ok, pure_ok, enterNonReentrant_ok] at h
    obtain ⟨_, -, _, -, _, -, _, ⟨-, rfl⟩, rfl⟩ := h
    rfl
  | setUpdater admin updater allowed =>
    simp only [exec, setUpdater, bind_ok, pure_ok, enterNonReentrant_ok] at h
    obtain ⟨_, -, _, -, _, ⟨-, rfl⟩, rfl⟩ := h
    rfl
  | initializeContract admin =>
    simp only [exec, initializeContract, bind_ok, pure_ok, enterNonReentrant_ok] at h
    obtain ⟨_, -, _, -, _, ⟨-, rfl⟩, rfl⟩ := h
    rfl
  | setAdmin newAdmin =>
    simp only [exec, setAdmin, bind_ok, pure_ok, enterNonReentrant_ok] at h
    obtain ⟨_, -, _, -, _, -, _, ⟨-, rfl⟩, rfl⟩ := h
    rfl
  | setParametersContract address =>
    simp only [exec, setParametersContract, bind_ok, pure_ok] at h
    obtain ⟨_, -, _, -, rfl⟩ := h
    rfl
  | proposeUpgrade => simp [Call.upgradeCall] at hc
  | executeUpgrade => simp [Call.upgradeCall] at hc
  | upgrade => simp [Call.upgradeCall] at hc

end Slot

theorem Call.upgradeCall_propose {call : Call} {newWasmHash : WasmHash}
    (h : call.upgradeCall = some (.propose newWasmHash)) :
    ∃ getParameters, call = .proposeUpgrade getParameters newWasmHash := by
  cases call <;> simp_all [upgradeCall]

theorem Call.upgradeCall_execute {call : Call} {newWasmHash : WasmHash}
    (h : call.upgradeCall = some (.execute newWasmHash)) :
    call = .executeUpgrade newWasmHash ∨ call = .upgrade newWasmHash := by
  cases call <;> simp_all [upgradeCall]

def asked (l : Label) : Option (Env × UpgradeCall) := l.call.upgradeCall.map (l.env, ·)

theorem asked_some {l : Label} {env : Env} {upgradeCall : UpgradeCall}
    (h : asked l = some (env, upgradeCall)) :
    ∃ call, l = ⟨env, call⟩ ∧ call.upgradeCall = some upgradeCall := by
  obtain ⟨_, hcall, heq⟩ := Option.map_eq_some_iff.mp h
  obtain ⟨rfl, rfl⟩ := Prod.mk.injEq .. ▸ heq
  exact ⟨l.call, rfl, hcall⟩

/-- What a proposal reads, if the label is one. -/
def delayRead (p : Storage) (l : Label) : Nat :=
  match l.call with
  | .proposeUpgrade getParameters _ => (getUpgradeDelaySeconds getParameters p).toOption.getD 0
  | _ => 0

def upgradeView : UpgradeView Storage Label where
  slot := Storage.slot
  admin := Storage.admin
  asked := asked
  delay := delayRead

theorem upgradeView_steps : upgradeView.Steps Step where
  propose := by
    intro p l p' env newWasmHash hs hasked
    obtain ⟨call, rfl, hcall⟩ := asked_some hasked
    obtain ⟨getParameters, rfl⟩ := Call.upgradeCall_propose hcall
    obtain ⟨hauth, delay, hdelay, -, rfl⟩ := proposeUpgrade_ok.mp hs
    have hread : delayRead p ⟨env, .proposeUpgrade getParameters newWasmHash⟩ = delay := by
      simp only [delayRead, hdelay, Except.toOption, Option.getD_some]
    simp only [upgradeView, hread]
    exact ⟨hauth, readUpgradeDelay_pos hdelay, rfl⟩
  execute := by
    intro p l p' env newWasmHash hs hasked
    obtain ⟨call, rfl, hcall⟩ := asked_some hasked
    rcases Call.upgradeCall_execute hcall with rfl | rfl
    · exact executeUpgrade_slot hs
    · exact executeUpgrade_slot hs
  frame := by
    intro p l p' hs hasked
    exact exec_slot hs (Option.map_eq_none_iff.mp hasked)

end Reputation

/-! ## The vendor registry -/

namespace VendorRegistry

def Storage.slot (p : Storage) : UpgradeSlot := ⟨p.pendingUpgrade, p.version⟩

def Call.upgradeCall : Call → Option UpgradeCall
  | .proposeUpgrade _ newWasmHash => some (.propose newWasmHash)
  | .executeUpgrade newWasmHash => some (.execute newWasmHash)
  | .upgrade newWasmHash => some (.execute newWasmHash)
  | _ => none

section Slot

variable {env : Env} {call : Call} {p p' : Storage} {newWasmHash : WasmHash}
variable {getParameters : Address → Reply ProtocolParameters}

theorem proposeUpgrade_ok :
    proposeUpgrade getParameters env newWasmHash p = .ok p' ↔
      (∃ admin, p.admin = some admin ∧ env.auths admin = true) ∧
        ∃ delay, getUpgradeDelaySeconds getParameters p = .ok delay ∧
          env.timestamp + delay < 2 ^ 64 ∧
          p' = { p with
            pendingUpgrade := some ⟨newWasmHash, env.timestamp, env.timestamp + delay⟩ } :=
  proposal_reads_ok

theorem executeUpgrade_slot (h : executeUpgrade env newWasmHash p = .ok p') :
    (∃ q, p.slot.pending = some q ∧ q.wasmHash = newWasmHash ∧ q.unlockAt ≤ env.timestamp) ∧
      p'.slot = ⟨none, p.slot.version + 1⟩ := by
  simp only [executeUpgrade, bind_ok, pure_ok, PendingUpgrade.execute_ok] at h
  obtain ⟨_, -, _, -, _, ⟨-, rfl, hpending⟩, _, -, rfl⟩ := h
  exact ⟨hpending, rfl⟩

theorem setStatus_slot {admin vendor : Address} {check : VendorInfo → Except Failure Unit}
    {status : VendorStatus} (h : setStatus env admin vendor check status p = .ok p') :
    p'.slot = p.slot := by
  simp only [setStatus, checkNonReentrant, bind_ok, pure_ok] at h
  obtain ⟨_, -, _, -, _, ⟨_, -, rfl⟩, info, -, _, -, rfl⟩ := h
  rfl

/-- No other call touches the slot. -/
theorem exec_slot (h : exec env call p = .ok p') (hc : call.upgradeCall = none) :
    p'.slot = p.slot := by
  cases call with
  | initializeContract admin =>
    simp only [exec, initializeContract, bind_ok, pure_ok] at h
    obtain ⟨_, -, _, -, rfl⟩ := h
    rfl
  | registerVendor admin vendor name =>
    simp only [exec, registerVendor, checkNonReentrant, incrementVendorCount, bind_ok,
      pure_ok] at h
    obtain ⟨_, -, _, -, _, -, _, -, _, ⟨_, -, rfl⟩, _, ⟨_, -, rfl⟩, rfl⟩ := h
    rfl
  | approveVendor => exact setStatus_slot h
  | suspendVendor => exact setStatus_slot h
  | deactivateVendor => exact setStatus_slot h
  | activateVendor => exact setStatus_slot h
  | setVendorStatus => exact setStatus_slot h
  | setParametersContract address =>
    simp only [exec, setParametersContract, bind_ok, pure_ok] at h
    obtain ⟨_, -, _, -, rfl⟩ := h
    rfl
  | proposeUpgrade => simp [Call.upgradeCall] at hc
  | executeUpgrade => simp [Call.upgradeCall] at hc
  | upgrade => simp [Call.upgradeCall] at hc

end Slot

theorem Call.upgradeCall_propose {call : Call} {newWasmHash : WasmHash}
    (h : call.upgradeCall = some (.propose newWasmHash)) :
    ∃ getParameters, call = .proposeUpgrade getParameters newWasmHash := by
  cases call <;> simp_all [upgradeCall]

theorem Call.upgradeCall_execute {call : Call} {newWasmHash : WasmHash}
    (h : call.upgradeCall = some (.execute newWasmHash)) :
    call = .executeUpgrade newWasmHash ∨ call = .upgrade newWasmHash := by
  cases call <;> simp_all [upgradeCall]

def asked (l : Label) : Option (Env × UpgradeCall) := l.call.upgradeCall.map (l.env, ·)

theorem asked_some {l : Label} {env : Env} {upgradeCall : UpgradeCall}
    (h : asked l = some (env, upgradeCall)) :
    ∃ call, l = ⟨env, call⟩ ∧ call.upgradeCall = some upgradeCall := by
  obtain ⟨_, hcall, heq⟩ := Option.map_eq_some_iff.mp h
  obtain ⟨rfl, rfl⟩ := Prod.mk.injEq .. ▸ heq
  exact ⟨l.call, rfl, hcall⟩

/-- What a proposal reads, if the label is one. -/
def delayRead (p : Storage) (l : Label) : Nat :=
  match l.call with
  | .proposeUpgrade getParameters _ => (getUpgradeDelaySeconds getParameters p).toOption.getD 0
  | _ => 0

def upgradeView : UpgradeView Storage Label where
  slot := Storage.slot
  admin := Storage.admin
  asked := asked
  delay := delayRead

theorem upgradeView_steps : upgradeView.Steps Step where
  propose := by
    intro p l p' env newWasmHash hs hasked
    obtain ⟨call, rfl, hcall⟩ := asked_some hasked
    obtain ⟨getParameters, rfl⟩ := Call.upgradeCall_propose hcall
    obtain ⟨hauth, delay, hdelay, -, rfl⟩ := proposeUpgrade_ok.mp hs
    have hread : delayRead p ⟨env, .proposeUpgrade getParameters newWasmHash⟩ = delay := by
      simp only [delayRead, hdelay, Except.toOption, Option.getD_some]
    simp only [upgradeView, hread]
    exact ⟨hauth, readUpgradeDelay_pos hdelay, rfl⟩
  execute := by
    intro p l p' env newWasmHash hs hasked
    obtain ⟨call, rfl, hcall⟩ := asked_some hasked
    rcases Call.upgradeCall_execute hcall with rfl | rfl
    · exact executeUpgrade_slot hs
    · exact executeUpgrade_slot hs
  frame := by
    intro p l p' hs hasked
    exact exec_slot hs (Option.map_eq_none_iff.mp hasked)

end VendorRegistry

/-! ## All four -/

namespace Protocol

/-- In every run of each of the four contracts from its deployment, upgrades are
timelocked, and the version counts them. -/
theorem upgrades_timelocked :
    (∀ {W : Type} (c : CreditLine.Clients W) {s t tr}, CreditLine.Deployed s →
      Run (CreditLine.Step c) s tr t → (CreditLine.upgradeView c).timelock.Respected 1 tr t) ∧
    (∀ (d : Deployment) {s t tr}, LiquidityPool.Deployed s →
      Run (LiquidityPool.Step d) s tr t → LiquidityPool.upgradeView.timelock.Respected 1 tr t) ∧
    (∀ {s t tr}, Reputation.Deployed s →
      Run Reputation.Step s tr t → Reputation.upgradeView.timelock.Respected 1 tr t) ∧
    (∀ {s t tr}, VendorRegistry.Deployed s →
      Run VendorRegistry.Step s tr t → VendorRegistry.upgradeView.timelock.Respected 1 tr t) := by
  refine ⟨?_, ?_, ?_, ?_⟩
  · intro W c s t tr hs hrun
    have hsteps : Run (fun s l s' => Reachable CreditLine.Deployed (CreditLine.Step c) s ∧
        CreditLine.Step c s l s') s tr t :=
      hrun.restrict hs fun s l s' hreach _ hstep => ⟨hreach, hstep⟩
    obtain ⟨line, w⟩ := s
    obtain rfl : line = _ := hs
    exact (CreditLine.upgradeView_steps c).kept.respected hsteps rfl
  · intro d s t tr hs hrun
    obtain ⟨pool, token⟩ := s
    obtain rfl : pool = _ := hs
    exact (LiquidityPool.upgradeView_steps d).kept.respected hrun rfl
  · intro s t tr hs hrun
    obtain rfl := hs
    exact Reputation.upgradeView_steps.kept.respected hrun rfl
  · intro s t tr hs hrun
    obtain rfl := hs
    exact VendorRegistry.upgradeView_steps.kept.respected hrun rfl

/-- The admin proposes an upgrade of the registry and executes it a day later. -/
def sampleUpgrade : List VendorRegistry.Label :=
  [⟨Env.signedBy [10] 50, .initializeContract 10⟩,
    ⟨Env.signedBy [10] 100, .proposeUpgrade (fun _ => .ok none) 7⟩,
    ⟨Env.signedBy [10] 86500, .executeUpgrade 7⟩]

theorem upgrades_timelocked_sample : ∃ (tr : List (VendorRegistry.Storage × VendorRegistry.Label))
    (t : VendorRegistry.Storage), t.version = 2 ∧
      VendorRegistry.upgradeView.timelock.Respected 1 tr t := by
  have hreplay : (replay VendorRegistry.take .empty sampleUpgrade).toOption.map
      (fun r => r.2.version) = some 2 := by decide +kernel
  obtain ⟨tr, t, hr, hversion⟩ := replay_observed hreplay
  have hrun : Run VendorRegistry.Step .empty tr t := Run.of_replay (fun _ _ _ _ h => h) hr
  exact ⟨tr, t, hversion, upgrades_timelocked.2.2.2 rfl hrun⟩

end Protocol

end StepFi

import StepFi.LiquidityPool.Caps
import StepFi.LiquidityPool.Price
import StepFi.Lib.EventLog

/-!
# The pool's events

What each call publishes (`emitted`), and an indexer that sees nothing else. Its
copy of the accounts, of what each merchant was funded, of the caps and of the
pause flag is exact after every run (`log_tells_accounts`): the dead shares, and
the amounts that the pool cuts to what it has, follow from what came before.
-/

namespace StepFi.LiquidityPool

open Lib

/-! ## Events -/

/-- The events, each with its topics and then its data. -/
inductive Emitted where
  | liquidityDeposited (provider : Address) (amount sharesIssued : Int)
  | liquidityWithdrawn (provider : Address) (sharesBurned amountReturned : Int)
  | loanFunded (creditline merchant : Address) (amount outflowRemaining merchantRemaining : Int)
  | repaymentReceived (creditline : Address) (principal interest : Int)
  | guaranteeReceived (creditline : Address) (amount : Int)
  | interestDistributed (totalInterest lpAmount protocolAmount merchantAmount : Int)
  | lossAbsorbed (creditline : Address) (principalShortfall : Int)
  | capsUpdated (admin : Address) (outflowCapBps : Nat) (exposureCap : Int)
  | vendorRegistryUpdated (admin : Address) (registry : Option Address)
  | upgradeProposed (wasmHash : WasmHash) (proposedAt unlockAt : Nat)
  | contractUpgraded (oldVersion newVersion timestamp : Nat)
  | paused (admin : Address) (timestamp : Nat)
  | unpaused (admin : Address) (timestamp : Nat)

section Emission

variable (d : Deployment)

/-- What a funding from `s` to `s'` left of the outflow cap. -/
def outflowRemaining (s s' : State) : Int :=
  if 0 < s.pool.outflowCapBps then
    ((s.pool.totalLiquidity - s.pool.lockedLiquidity) * s.pool.outflowCapBps).tdiv totalBps
      - s'.pool.outflowUsed
  else 0

def merchantRemaining (merchant : Address) (s s' : State) : Int :=
  if 0 < s.pool.merchantExposureCap then
    s.pool.merchantExposureCap - s'.pool.merchantFunded merchant
  else 0

def interestEvent (interest : Int) : Emitted :=
  .interestDistributed interest (lpShare interest) (protocolShare interest)
    (merchantShare interest)

def upgradeEvents (env : Env) (newWasmHash : WasmHash) (p : Storage) :
    Except Failure (List Emitted) := do
  let upgraded ← executeUpgrade env newWasmHash p
  return [.contractUpgraded p.version upgraded.version env.timestamp]

/-- What a call publishes; one that fails publishes nothing. -/
def emitted (active : Address → Option Bool) (env : Env) (call : Call) (s : State) :
    Except Failure (List Emitted) :=
  match call with
  | .deposit provider amount => do
    let (sharesIssued, _) ← deposit d env provider amount s
    return [.liquidityDeposited provider amount sharesIssued]
  | .withdraw provider shares => do
    let (amountReturned, _) ← withdraw d env provider shares s
    return [.liquidityWithdrawn provider shares amountReturned]
  | .fundLoan creditline merchant amount => do
    let s' ← fundLoan d active env creditline merchant amount s
    return [.loanFunded creditline merchant amount (outflowRemaining s s')
      (merchantRemaining merchant s s')]
  | .receiveRepayment creditline principal interest => do
    let _ ← receiveRepayment d env creditline principal interest s
    return .repaymentReceived creditline principal interest ::
      if 0 < interest then [interestEvent interest] else []
  | .receiveGuarantee creditline amount => do
    let _ ← receiveGuarantee d env creditline amount s
    return [.guaranteeReceived creditline amount]
  | .absorbLoss creditline shortfall => do
    let _ ← absorbLoss env creditline shortfall s
    return [.lossAbsorbed creditline shortfall]
  | .distributeInterest creditline amount => do
    let _ ← distributeInterest d env creditline amount s
    return [interestEvent amount]
  | .accumulateInterest creditline amount => do
    let _ ← accumulateInterest d env creditline amount s
    return [interestEvent amount]
  | .setOutflowCapBps admin bps => do
    let p ← setOutflowCapBps env admin bps s.pool
    return [.capsUpdated admin bps p.merchantExposureCap]
  | .setMerchantExposureCap admin amount => do
    let p ← setMerchantExposureCap env admin amount s.pool
    return [.capsUpdated admin p.outflowCapBps amount]
  | .setVendorRegistry admin registry => do
    let _ ← setVendorRegistry env admin registry s.pool
    return [.vendorRegistryUpdated admin registry]
  | .proposeUpgrade getParameters newWasmHash => do
    let p ← proposeUpgrade getParameters env newWasmHash s.pool
    let pending ← demand p.pendingUpgrade (.pool .upgradeNotProposed)
    return [.upgradeProposed pending.wasmHash pending.proposedAt pending.unlockAt]
  | .executeUpgrade newWasmHash => upgradeEvents env newWasmHash s.pool
  | .upgrade newWasmHash => upgradeEvents env newWasmHash s.pool
  | .pause admin => do
    let _ ← pause env admin s.pool
    return [.paused admin env.timestamp]
  | .unpause admin => do
    let _ ← unpause env admin s.pool
    return [.unpaused admin env.timestamp]
  | _ => .ok []

def publishes (s : State) : Label → List Emitted
  | .call active env call => (emitted d active env call s).toOption.getD []
  | .ledger _ => []

end Emission

/-! ## The indexer -/

/-- What an indexer keeps of the pool. -/
structure Seen where
  accounts : Accounts
  merchantFunded : Address → Int
  outflowCapBps : Nat
  merchantExposureCap : Int
  paused : Bool

def Storage.seen (p : Storage) : Seen where
  accounts := p.accounts
  merchantFunded := p.merchantFunded
  outflowCapBps := p.outflowCapBps
  merchantExposureCap := p.merchantExposureCap
  paused := p.paused

def see (v : Seen) : Emitted → Seen
  | .liquidityDeposited provider amount sharesIssued =>
    { v with accounts := { v.accounts with
        total := v.accounts.total + amount
        shares := v.accounts.seeded + sharesIssued
        held := Function.update v.accounts.held provider
          (v.accounts.held provider + sharesIssued) } }
  | .liquidityWithdrawn provider sharesBurned amountReturned =>
    { v with accounts := { v.accounts with
        total := v.accounts.total - amountReturned
        shares := v.accounts.shares - sharesBurned
        held := Function.update v.accounts.held provider
          (v.accounts.held provider - sharesBurned) } }
  | .loanFunded _ merchant amount _ _ =>
    { v with
      accounts := { v.accounts with locked := v.accounts.locked + amount }
      merchantFunded := Function.update v.merchantFunded merchant
        (v.merchantFunded merchant + amount) }
  | .repaymentReceived _ principal _ =>
    { v with accounts := { v.accounts with locked := max 0 (v.accounts.locked - principal) } }
  | .guaranteeReceived _ amount =>
    { v with accounts := { v.accounts with
        locked := v.accounts.locked - min amount v.accounts.locked
        total := v.accounts.total + min amount v.accounts.locked } }
  | .interestDistributed _ lpAmount _ _ =>
    { v with accounts := { v.accounts with total := v.accounts.total + lpAmount } }
  | .lossAbsorbed _ shortfall =>
    { v with accounts := { v.accounts with
        locked := v.accounts.locked - min shortfall v.accounts.locked
        total := v.accounts.total - min shortfall v.accounts.total } }
  | .capsUpdated _ bps cap => { v with outflowCapBps := bps, merchantExposureCap := cap }
  | .paused _ _ => { v with paused := true }
  | .unpaused _ _ => { v with paused := false }
  | _ => v

/-- What the log of a run says of the pool. -/
def indexed (d : Deployment) (tr : List (State × Label)) : Seen :=
  (logged (publishes d) tr).foldl see Storage.empty.seen

section Step

variable {d : Deployment} {active : Address → Option Bool} {env : Env} {call : Call}
variable {s s' : State}

theorem upgradeEvents_seen {newWasmHash : WasmHash} {p p' : Storage}
    (h : executeUpgrade env newWasmHash p = .ok p') :
    ((upgradeEvents env newWasmHash p).toOption.getD []).foldl see p.seen = p'.seen := by
  obtain ⟨version, rfl⟩ := executeUpgrade_spec h
  simp only [upgradeEvents, h]
  rfl

/-- The events of a call carry the indexer over it. -/
theorem exec_seen (h : exec d active env call s = .ok s') :
    ((emitted d active env call s).toOption.getD []).foldl see s.pool.seen = s'.pool.seen := by
  cases call with
  | deposit provider amount =>
    obtain ⟨⟨k, s₁⟩, h₁, rfl⟩ := map_ok.mp h
    obtain ⟨price, -, -, -, -, -, -, -, rfl⟩ := deposit_spec h₁
    simp only [emitted, h₁, seedDeadShares_eq]
    rfl
  | withdraw provider shares =>
    obtain ⟨⟨r, s₁⟩, h₁, rfl⟩ := map_ok.mp h
    obtain ⟨price, -, -, -, -, -, -, -, -, rfl⟩ := withdraw_spec h₁
    simp only [emitted, h₁]
    rfl
  | fundLoan creditline merchant amount =>
    have h₁ : fundLoan d active env creditline merchant amount s = .ok s' := h
    obtain ⟨-, -, hfunded⟩ := fundLoan_caps h₁
    obtain ⟨-, -, -, -, -, _, _, _, rfl⟩ := fundLoan_spec h₁
    obtain rfl := hfunded
    simp only [emitted, h₁]
    rfl
  | receiveRepayment creditline principal interest =>
    have h₁ : receiveRepayment d env creditline principal interest s = .ok s' := h
    obtain ⟨-, -, -, -, -, -, rfl⟩ := receiveRepayment_spec h₁
    simp only [emitted, h₁, ok_bind, Pure.pure, Except.pure, Except.toOption, Option.getD_some,
      List.foldl_cons]
    split
    · rename_i hpos
      simp only [repaid, hpos, if_true]
      rfl
    · rename_i hpos
      simp only [repaid, hpos, if_false, Int.add_zero]
      rfl
  | receiveGuarantee creditline amount =>
    have h₁ : receiveGuarantee d env creditline amount s = .ok s' := h
    obtain ⟨-, -, -, -, -, -, -, -, -, -, rfl⟩ := receiveGuarantee_ok.mp h₁
    simp only [emitted, h₁]
    rfl
  | absorbLoss creditline shortfall =>
    have h₁ : absorbLoss env creditline shortfall s = .ok s' := h
    obtain ⟨-, -, -, -, -, -, -, rfl⟩ := absorbLoss_ok.mp h₁
    simp only [emitted, h₁]
    rfl
  | distributeInterest creditline amount =>
    have h₁ : distributeInterest d env creditline amount s = .ok s' := h
    obtain ⟨-, -, -, -, -, rfl⟩ := distributeInterest_spec h₁
    simp only [emitted, h₁]
    rfl
  | accumulateInterest creditline amount =>
    have h₁ : accumulateInterest d env creditline amount s = .ok s' := h
    obtain ⟨-, -, -, -, -, rfl⟩ := distributeInterest_spec h₁
    simp only [emitted, h₁]
    rfl
  | setOutflowCapBps admin bps =>
    obtain ⟨p, h₁, rfl⟩ := map_ok.mp h
    simp only [emitted, h₁]
    obtain rfl := setOutflowCapBps_spec h₁
    rfl
  | setMerchantExposureCap admin amount =>
    obtain ⟨p, h₁, rfl⟩ := map_ok.mp h
    simp only [emitted, h₁]
    obtain ⟨-, rfl⟩ := setMerchantExposureCap_spec h₁
    rfl
  | pause admin =>
    obtain ⟨p, h₁, rfl⟩ := map_ok.mp h
    simp only [emitted, h₁]
    obtain ⟨-, -, rfl⟩ := adminSet_spec h₁
    rfl
  | unpause admin =>
    obtain ⟨p, h₁, rfl⟩ := map_ok.mp h
    simp only [emitted, h₁]
    obtain ⟨-, -, rfl⟩ := adminSet_spec h₁
    rfl
  | setVendorRegistry admin registry =>
    obtain ⟨p, h₁, rfl⟩ := map_ok.mp h
    simp only [emitted, h₁]
    obtain ⟨-, -, rfl⟩ := adminSet_spec h₁
    rfl
  | proposeUpgrade getParameters newWasmHash =>
    obtain ⟨p, h₁, rfl⟩ := map_ok.mp h
    simp only [emitted, h₁]
    obtain ⟨pending, rfl⟩ := proposeUpgrade_spec h₁
    rfl
  | executeUpgrade newWasmHash =>
    obtain ⟨p, h₁, rfl⟩ := map_ok.mp h
    exact upgradeEvents_seen h₁
  | upgrade newWasmHash =>
    obtain ⟨p, h₁, rfl⟩ := map_ok.mp h
    exact upgradeEvents_seen h₁
  | initializeContract =>
    obtain ⟨p, h₁, rfl⟩ := map_ok.mp h
    obtain ⟨-, rfl⟩ := initializeContract_spec h₁
    rfl
  | setAdmin =>
    obtain ⟨p, h₁, rfl⟩ := map_ok.mp h
    obtain rfl := setAdmin_spec h₁
    rfl
  | setParametersContract =>
    obtain ⟨p, h₁, rfl⟩ := map_ok.mp h
    obtain rfl := setParametersContract_spec h₁
    rfl
  | setCreditline | setTreasury | setMerchantFund =>
    obtain ⟨p, h₁, rfl⟩ := map_ok.mp h
    obtain ⟨-, -, rfl⟩ := adminSet_spec h₁
    rfl

theorem observes (d : Deployment) : Observes Deployed (Step d) (publishes d) see
    Storage.empty.seen fun v s => v = s.pool.seen where
  start := fun s h0 => by rw [show s.pool = Storage.empty from h0]
  step := by
    rintro s l s' _ - rfl hs
    cases l with
    | call active env call => exact exec_seen hs
    | ledger token =>
      cases hs
      rfl

end Step

/-- After every run the log says exactly what the pool's accounts, the funding of
each merchant, the caps and the pause flag are. -/
theorem log_tells_accounts {d : Deployment} {s₀ s : State} {tr : List (State × Label)}
    (h : Run (Step d) s₀ tr s) (h0 : Deployed s₀) : indexed d tr = s.pool.seen :=
  (observes d).run h0 h

/-- A deposit, a funding, a repayment with interest and a withdrawal, read off the log. -/
theorem log_tells_accounts_sample : ∃ (s : State) (tr : List (State × Label)),
    indexed .sample tr = s.pool.seen ∧ (indexed .sample tr).accounts.total = 9464 ∧
    (indexed .sample tr).merchantFunded 40 = 10000 := by
  have hreplay : (replay (take .sample) sampleDeployed (lossRun ++
      [.call (fun _ => none) (Env.signedBy [30] 100) (.receiveRepayment 30 10000 600),
        .call (fun _ => none) (Env.signedBy [21] 100) (.withdraw 21 1000)])).toOption.map
      (fun r => ((indexed .sample r.1).accounts.total,
        (indexed .sample r.1).merchantFunded 40)) = some (9464, 10000) := by
    decide +kernel
  obtain ⟨tr, s, hr, hobs⟩ := replay_observed hreplay
  obtain ⟨htotal, hfunded⟩ := Prod.mk.injEq .. ▸ hobs
  have hrun : Run (Step .sample) sampleDeployed tr s := Run.of_replay (fun _ _ _ _ h => h) hr
  exact ⟨s, tr, log_tells_accounts hrun rfl, htotal, hfunded⟩

end StepFi.LiquidityPool

import StepFi.CreditLine.Spec
import StepFi.LiquidityPool.Ledger
import StepFi.Reputation.Contract
import StepFi.Lib.Transition

/-!
# The composed protocol

The credit line run against the real pool, the real reputation contract and the
token. The vendor registry and the parameters contract appear as what they
answer, which may change at any time. A step is a call by anyone outside the
deployment; the addresses the contracts store are only ever those of the
deployment.
-/

namespace StepFi.Protocol

open Lib

/-- The contracts the credit line calls. -/
structure World where
  token : Token
  pool : LiquidityPool.Storage
  reputation : Reputation.Storage
  /-- What the vendor registry answers to `is_active`; `none` is a failed call. -/
  vendors : Address → Option Bool
  /-- What the parameters contract answers to `get_parameters`. -/
  parameters : Option CreditLine.ProtocolParameters

abbrev State := CreditLine.State World

/-! ## Calls between the contracts -/

/-- A call on the pool, which acts on its storage and on the token. -/
def callPool (d : Deployment) (pool : Address)
    (f : LiquidityPool.State → Except Failure LiquidityPool.State) (w : World) :
    Except Failure World := do
  ensure (pool = d.pool) (.noContract pool)
  let s ← f ⟨w.pool, w.token⟩
  return { w with pool := s.pool, token := s.token }

def callReputation (d : Deployment) (reputation : Address)
    (f : Reputation.Storage → Except Failure Reputation.Storage) (w : World) :
    Except Failure World := do
  ensure (reputation = d.reputation) (.noContract reputation)
  let p ← f w.reputation
  return { w with reputation := p }

/-- What the credit line at `d.creditLine` sees of the other contracts. -/
def clients (d : Deployment) : CreditLine.Clients World where
  self := d.creditLine
  transfer := fun env token source target amount w =>
    (Token.transferAt d env d.creditLine token source target amount w.token).map
      fun t => { w with token := t }
  balance := fun token account w => do
    ensure (token = d.token) (.noContract token)
    return w.token.balance account
  isActive := fun registry vendor w =>
    if registry = d.vendorRegistry then w.vendors vendor else none
  getParameters := fun address w => if address = d.parameters then w.parameters else none
  getScore := fun reputation user w => do
    ensure (reputation = d.reputation) (.noContract reputation)
    return Reputation.getScore w.reputation user
  increaseScore := fun env reputation updater user amount =>
    callReputation d reputation (Reputation.increaseScore env updater user amount)
  decreaseScore := fun env reputation updater user amount =>
    callReputation d reputation (Reputation.decreaseScore env updater user amount)
  getPoolStats := fun pool w => do
    ensure (pool = d.pool) (.noContract pool)
    LiquidityPool.getPoolStats w.pool
  fundLoan := fun env pool creditline merchant amount w =>
    callPool d pool (LiquidityPool.fundLoan d w.vendors env creditline merchant amount) w
  receiveRepayment := fun env pool creditline principal interest =>
    callPool d pool (LiquidityPool.receiveRepayment d env creditline principal interest)
  receiveGuarantee := fun env pool creditline amount =>
    callPool d pool (LiquidityPool.receiveGuarantee d env creditline amount)
  absorbLoss := fun env pool creditline shortfall =>
    callPool d pool (LiquidityPool.absorbLoss env creditline shortfall)

/-! ## Steps -/

inductive Action where
  | line (call : CreditLine.Call)
  | pool (call : LiquidityPool.Call)
  | reputation (call : Reputation.Call)
  | transfer (source target : Address) (amount : Int)
  | mint (target : Address) (amount : Int)
  /-- The vendor registry changes its answers. -/
  | vendors (answers : Address → Option Bool)
  /-- Governance changes the parameters. -/
  | parameters (answer : Option CreditLine.ProtocolParameters)

structure Label where
  env : Env
  action : Action

def take (d : Deployment) (s : State) (l : Label) : Except Failure State :=
  let onWorld (r : Except Failure World) : Except Failure State :=
    r.map fun w => { s with world := w }
  match l.action with
  | .line call => CreditLine.exec (clients d) l.env call s
  | .pool call =>
    onWorld (callPool d d.pool (LiquidityPool.exec d s.world.vendors l.env call) s.world)
  | .reputation call =>
    onWorld (callReputation d d.reputation (Reputation.exec l.env call) s.world)
  | .transfer source target amount => do
    requireAuth l.env source
    onWorld ((s.world.token.transfer source target amount).map fun t =>
      { s.world with token := t })
  | .mint target amount =>
    onWorld ((s.world.token.mint target amount).map fun t => { s.world with token := t })
  | .vendors answers => onWorld (.ok { s.world with vendors := answers })
  | .parameters answer => onWorld (.ok { s.world with parameters := answer })

/-- The calls that name another contract name the deployed one. -/
def Action.Points (d : Deployment) : Action → Prop
  | .line call => call.Points d
  | .pool call => call.Points d
  | _ => True

instance (d : Deployment) (action : Action) : Decidable (action.Points d) := by
  unfold Action.Points
  split <;> infer_instance

structure Step (d : Deployment) (s : State) (l : Label) (s' : State) : Prop where
  external : l.env.External d
  points : l.action.Points d
  taken : take d s l = .ok s'

/-- The contracts just deployed, with nothing stored, among a token's holders. -/
structure Deployed (s : State) : Prop where
  line : s.line = CreditLine.Storage.empty
  pool : s.world.pool = LiquidityPool.Storage.empty
  reputation : s.world.reputation = Reputation.Storage.empty
  solvent : s.world.token.Solvent
  log : s.world.token.log = []

/-- A replay of calls from outside is a run. -/
theorem run_of_replay {d : Deployment} {s t : State} {ls : List Label} {tr : List (State × Label)}
    (hl : ∀ l ∈ ls, l.env.External d ∧ l.action.Points d)
    (h : replay (take d) s ls = .ok (tr, t)) : Run (Step d) s tr t :=
  Run.of_replay (fun _ l _ hmem htaken => ⟨(hl l hmem).1, (hl l hmem).2, htaken⟩) h

/-! ## Concrete runs

Administrator `10`, score updater `11`, liquidity provider `20`, borrowers `21`
and `22`, vendor `30`, treasury `40`, merchant fund `41`. -/

def sampleStart : State where
  line := CreditLine.Storage.empty
  world := {
    token := { balance := fun a => if a ∈ [20, 21, 22] then 100000 else 0, log := [] }
    pool := LiquidityPool.Storage.empty
    reputation := Reputation.Storage.empty
    vendors := fun a => if a = 30 then some true else none
    parameters := none }

theorem sampleStart_deployed : Deployed sampleStart where
  line := rfl
  pool := rfl
  reputation := rfl
  solvent := by
    intro a
    simp only [sampleStart]
    split <;> decide
  log := rfl

def Label.by (signer : Address) (timestamp : UInt64) (action : Action) : Label :=
  ⟨Env.signedBy [signer] timestamp, action⟩

/-- The contracts configured, both borrowers at score `80`, `10000` in the pool. -/
def configure : List Label :=
  [.by 10 50 (.line (.initializeContract 10 3 4 2 6)),
    .by 10 50 (.pool (.initializeContract 10 6 40 41 none)),
    .by 10 50 (.pool (.setCreditline 10 1)),
    .by 10 50 (.reputation (.initializeContract 10)),
    .by 10 50 (.reputation (.setUpdater 10 1 true)),
    .by 10 50 (.reputation (.setUpdater 10 11 true)),
    .by 11 60 (.reputation (.setScore 11 21 80)),
    .by 11 60 (.reputation (.setScore 11 22 80)),
    .by 20 60 (.pool (.deposit 20 10000))]

/-- A loan of `1000` over a guarantee of `200`, due at `2000`. -/
def openLoan (borrower : Address) : Label :=
  .by borrower 100
    (.line (.createLoan ⟨borrower, 30, 1000, 200, [⟨2000, 1070, false, 0⟩], .standard⟩))

/-- A request for a loan of `4000` over a guarantee of `1000`. -/
def request (borrower : Address) : Label :=
  .by borrower 100
    (.line (.requestLoan ⟨borrower, 30, 4000, 1000, [⟨2000, 4280, false, 0⟩], .standard⟩))

def approve (id : Nat) : Label := .by 10 150 (.line (.approveLoan id))

/-- A payment on the loan `id` before its due date. -/
def repay (borrower id : Nat) (amount : Int) : Label :=
  .by borrower 200 (.line (.repayLoan borrower id amount))

/-- Anyone marks the loan `id` as defaulted, just after its due date. -/
def default (id : Nat) : Label := .by 30 2001 (.line (.markDefaulted id))

end StepFi.Protocol

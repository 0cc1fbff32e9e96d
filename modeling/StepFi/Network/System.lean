import StepFi.Protocol.Delay
import StepFi.VendorRegistry.Contract
import StepFi.Vouching.Scores

/-!
# The network of contracts

All six contracts and the token, each with its own storage. What the protocol of
the credit line, the pool and the reputation contract took as an answer from
outside is here computed by the contract that gives it: the vendor registry says
which vendor is active, the parameters contract what the parameters are, and the
vouching contract moves scores like any other updater.
-/

namespace StepFi.Network

open Lib

/-- Where the contracts are: those of the protocol, and the vouching contract,
which none of them stores. -/
structure Site where
  core : Deployment
  vouching : Address
  apart : vouching ∉ core.contracts

structure State where
  line : CreditLine.Storage
  token : Token
  pool : LiquidityPool.Storage
  reputation : Reputation.Storage
  registry : VendorRegistry.Storage
  governance : Parameters.Storage
  vouching : Vouching.Storage

variable (n : Site)

/-! ## What the contracts see of each other -/

/-- `is_active` never fails: an unknown vendor is not active. -/
def State.vendors (s : State) : Address → Option Bool :=
  fun vendor => some (VendorRegistry.isActive s.registry vendor)

/-- What a contract reads from the contract at an address, through its own copy of
the type. -/
def State.parameters {α : Type} (s : State) (decode : Fields → Reply α) : Address → Reply α :=
  Protocol.askParameters n.core s.governance decode

/-- The other contracts as the credit line sees them, whose read of the parameters
always comes back (`creditLine_reads`). -/
def State.world (s : State) : Protocol.World where
  token := s.token
  pool := s.pool
  reputation := s.reputation
  vendors := s.vendors
  parameters := (s.parameters n CreditLine.ProtocolParameters.decode n.core.parameters).answer

def State.protocol (s : State) : Protocol.State := ⟨s.line, s.world n⟩

/-- The vouching contract and the one it lends scores on. -/
def State.scores (s : State) : Vouching.Scores.State := ⟨s.vouching, s.reputation⟩

/-! ## Steps -/

/-- A proposal of an upgrade asks the parameters contract. -/
def poolCall (s : State) : LiquidityPool.Call → LiquidityPool.Call
  | .proposeUpgrade _ newWasmHash =>
    .proposeUpgrade (s.parameters n LiquidityPool.ProtocolParameters.decode) newWasmHash
  | call => call

def reputationCall (s : State) : Reputation.Call → Reputation.Call
  | .proposeUpgrade _ newWasmHash =>
    .proposeUpgrade (s.parameters n Reputation.ProtocolParameters.decode) newWasmHash
  | call => call

def registryCall (s : State) : VendorRegistry.Call → VendorRegistry.Call
  | .proposeUpgrade _ newWasmHash =>
    .proposeUpgrade (s.parameters n VendorRegistry.ProtocolParameters.decode) newWasmHash
  | call => call

inductive Action where
  | line (call : CreditLine.Call)
  | pool (call : LiquidityPool.Call)
  | reputation (call : Reputation.Call)
  | registry (call : VendorRegistry.Call)
  | governance (call : Parameters.Call)
  | vouching (call : Vouching.Call)
  | transfer (source target : Address) (amount : Int)
  | mint (target : Address) (amount : Int)

structure Label where
  env : Env
  action : Action

def take (s : State) (l : Label) : Except Failure State :=
  match l.action with
  | .line call => do
    let t ← CreditLine.exec (Protocol.clients n.core) l.env call (s.protocol n)
    return { s with
      line := t.line, token := t.world.token, pool := t.world.pool
      reputation := t.world.reputation }
  | .pool call => do
    let t ← LiquidityPool.exec n.core s.vendors l.env (poolCall n s call) ⟨s.pool, s.token⟩
    return { s with pool := t.pool, token := t.token }
  | .reputation call => do
    let p ← Reputation.exec l.env (reputationCall n s call) s.reputation
    return { s with reputation := p }
  | .registry call => do
    let p ← VendorRegistry.exec l.env (registryCall n s call) s.registry
    return { s with registry := p }
  | .governance call => do
    let p ← Parameters.exec l.env call s.governance
    return { s with governance := p }
  | .vouching call => do
    let t ← Vouching.exec (Vouching.clients n.vouching n.core.reputation) l.env call s.scores
    return { s with vouching := t.vouching, reputation := t.world }
  | .transfer source target amount => do
    requireAuth l.env source
    let t ← s.token.transfer source target amount
    return { s with token := t }
  | .mint target amount => do
    let t ← s.token.mint target amount
    return { s with token := t }

/-- The calls that name another contract name the deployed one. -/
def Action.Points : Action → Prop
  | .line call => call.Points n.core
  | .pool call => call.Points n.core
  | _ => True

instance (action : Action) : Decidable (action.Points n) := by
  unfold Action.Points
  split <;> infer_instance

/-- A call from outside every contract. -/
structure Outside (env : Env) : Prop where
  core : env.External n.core
  signed : env.signed n.vouching = false
  invoker : env.invoker ≠ some n.vouching

theorem outside_iff {env : Env} : Outside n env ↔
    env.External n.core ∧ env.signed n.vouching = false ∧ env.invoker ≠ some n.vouching :=
  ⟨fun h => ⟨h.core, h.signed, h.invoker⟩, fun h => ⟨h.1, h.2.1, h.2.2⟩⟩

instance (env : Env) : Decidable (Outside n env) := decidable_of_iff _ (outside_iff n).symm

structure Step (s : State) (l : Label) (s' : State) : Prop where
  outside : Outside n l.env
  points : l.action.Points n
  taken : take n s l = .ok s'

/-- Every contract just deployed, among a token's holders. -/
structure Deployed (s : State) : Prop where
  line : s.line = CreditLine.Storage.empty
  pool : s.pool = LiquidityPool.Storage.empty
  reputation : s.reputation = Reputation.Storage.empty
  registry : s.registry = VendorRegistry.Storage.empty
  governance : s.governance = Parameters.Storage.empty
  vouching : s.vouching = Vouching.Storage.empty
  solvent : s.token.Solvent
  log : s.token.log = []

/-- A replay of calls from outside is a run. -/
theorem run_of_replay {n : Site} {s t : State} {ls : List Label} {tr : List (State × Label)}
    (hl : ∀ l ∈ ls, Outside n l.env ∧ l.action.Points n)
    (h : replay (take n) s ls = .ok (tr, t)) : Run (Step n) s tr t :=
  Run.of_replay (fun _ l _ hmem htaken => ⟨(hl l hmem).1, (hl l hmem).2, htaken⟩) h

/-! ## Concrete runs

The accounts of the protocol's own runs: administrator `10`, score updater `11`,
liquidity provider `20`, borrowers `21` and `22`, vendor `30`; and mentor `50`. -/

def Site.sample : Site where
  core := .sample
  vouching := 7
  apart := by decide

def sampleStart : State where
  line := CreditLine.Storage.empty
  token := Protocol.sampleStart.world.token
  pool := LiquidityPool.Storage.empty
  reputation := Reputation.Storage.empty
  registry := VendorRegistry.Storage.empty
  governance := Parameters.Storage.empty
  vouching := Vouching.Storage.empty

theorem sampleStart_deployed : Deployed sampleStart where
  line := rfl
  pool := rfl
  reputation := rfl
  registry := rfl
  governance := rfl
  vouching := rfl
  solvent := Protocol.sampleStart_deployed.solvent
  log := rfl

def Label.by (signer : Address) (timestamp : UInt64) (action : Action) : Label :=
  ⟨Env.signedBy [signer] timestamp, action⟩

/-- All six contracts set up: the vendor approved, the parameters at their
defaults, mentor `50` verified. -/
def setUp : List Label :=
  [.by 10 50 (.line (.initializeContract 10 3 4 2 6)),
    .by 10 50 (.line (.setParametersContract 10 5)),
    .by 10 50 (.pool (.initializeContract 10 6 40 41 (some 4))),
    .by 10 50 (.pool (.setCreditline 10 1)),
    .by 10 50 (.reputation (.initializeContract 10)),
    .by 10 50 (.reputation (.setUpdater 10 1 true)),
    .by 10 50 (.reputation (.setUpdater 10 7 true)),
    .by 10 50 (.reputation (.setUpdater 10 11 true)),
    .by 10 50 (.registry (.initializeContract 10)),
    .by 10 50 (.registry (.registerVendor 10 30 [86])),
    .by 10 50 (.registry (.approveVendor 10 30)),
    .by 10 50 (.governance (.initializeContract 10 Parameters.defaultParameters)),
    .by 10 50 (.vouching (.initializeContract 10 3 10)),
    .by 10 50 (.vouching (.setMentor 10 50 true))]

/-- Both borrowers at score `80`, the second with a vouch, and `10000` in the pool. -/
def prepare : List Label :=
  [.by 11 60 (.reputation (.setScore 11 21 80)),
    .by 11 60 (.reputation (.setScore 11 22 70)),
    .by 50 60 (.vouching (.vouch 50 22)),
    .by 20 60 (.pool (.deposit 20 10000))]

/-- A loan of `1000` over a guarantee of `200`, due at `2000`. -/
def openLoan (borrower : Address) : Label :=
  .by borrower 100
    (.line (.createLoan ⟨borrower, 30, 1000, 200, [⟨2000, 1070, false, 0⟩], .standard⟩))

/-- A payment on the loan `id` before its due date. -/
def repay (borrower id : Nat) (amount : Int) : Label :=
  .by borrower 200 (.line (.repayLoan borrower id amount))

end StepFi.Network

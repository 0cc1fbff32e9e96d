import StepFi.Protocol.Upgrades
import StepFi.Protocol.System
import StepFi.Parameters.Contract

/-!
# The governed upgrade delay

The parameters contract answers `get_parameters` with its own struct, and every
other contract unpacks the answer into its own copy of the type. The credit line's
copy has the producer's fields. The copies of the pool, the reputation contract and
the vendor registry lack `late_fee_bps`, so the host ends their calls: once they
are pointed at the parameters contract, `propose_upgrade` goes through in the
credit line only (`delay_honoured_iff`).
-/

namespace StepFi.Protocol

open Lib

/-- What a contract reads from the contract at `address` through `decode`, when
`governance` is the parameters contract's storage. -/
def askParameters {α : Type} (d : Deployment) (governance : Parameters.Storage)
    (decode : Fields → Reply α) (address : Address) : Reply α :=
  if address = d.parameters then
    match Parameters.getParameters governance with
    | .ok params => decode params.encode
    | .error _ => .ok none
  else .ok none

section Reads

variable {d : Deployment} {g : Parameters.Storage} {params : Parameters.ProtocolParameters}

theorem creditLine_decodes (params : Parameters.ProtocolParameters) :
    CreditLine.ProtocolParameters.decode params.encode = .ok (some {
      minGuaranteePercent := params.minGuaranteePercent
      minReputationThreshold := params.minReputationThreshold
      fullRepaymentReward := params.fullRepaymentReward
      defaultPenalty := params.defaultPenalty
      largeLoanThreshold := params.largeLoanThreshold
      largeLoanDefaultPenalty := params.largeLoanDefaultPenalty
      baseInterestBps := params.baseInterestBps
      gracePeriodSeconds := params.gracePeriodSeconds
      upgradeDelaySeconds := params.upgradeDelaySeconds
      lateFeeBps := params.lateFeeBps }) := by
  have hexact : params.encode.Exactly CreditLine.ProtocolParameters.fieldNames := List.Perm.refl _
  rw [CreditLine.ProtocolParameters.decode, Fields.unpack, if_pos hexact]
  rfl

/-- A struct of ten fields does not unpack into a type of nine. -/
theorem encode_unpack_fails {α : Type} {names : List String} {read : Option α}
    (params : Parameters.ProtocolParameters) (hnine : names.length = 9) :
    params.encode.unpack names read = .error .host := by
  have hten : params.encode.length = 10 := rfl
  exact Fields.unpack_fails (by omega)

theorem pool_does_not_decode (params : Parameters.ProtocolParameters) :
    LiquidityPool.ProtocolParameters.decode params.encode = .error .host :=
  encode_unpack_fails params rfl

theorem reputation_does_not_decode (params : Parameters.ProtocolParameters) :
    Reputation.ProtocolParameters.decode params.encode = .error .host :=
  encode_unpack_fails params rfl

theorem vendorRegistry_does_not_decode (params : Parameters.ProtocolParameters) :
    VendorRegistry.ProtocolParameters.decode params.encode = .error .host :=
  encode_unpack_fails params rfl

theorem askParameters_deployed {α : Type} (decode : Fields → Reply α)
    (hparams : g.params = some params) :
    askParameters d g decode d.parameters = decode params.encode := by
  simp [askParameters, Parameters.getParameters, hparams, demand]

/-- The credit line's own read never ends its call. -/
theorem creditLine_reads (d : Deployment) (g : Parameters.Storage) (address : Address) :
    ∃ answer, askParameters d g CreditLine.ProtocolParameters.decode address = .ok answer := by
  unfold askParameters
  split
  · split
    · exact ⟨_, creditLine_decodes _⟩
    · exact ⟨none, rfl⟩
  · exact ⟨none, rfl⟩

end Reads

/-! ## Proposals -/

/-- The contracts whose upgrades wait for the governed delay. -/
inductive Upgradable where
  | creditLine | pool | reputation | vendorRegistry
  deriving DecidableEq, Repr

/-- A contract that can propose at `env`, its delay governed: its admin authorised
the call, and it points at the deployed parameters contract. -/
structure Governed (d : Deployment) (env : Env) (admin parametersContract : Option Address) :
    Prop where
  authorised : ∃ a, admin = some a ∧ env.auths a = true
  configured : parametersContract = some d.parameters

/-- All four contracts governed by the parameters contract with storage `g`. -/
structure AllGoverned (d : Deployment) (env : Env) (g : Parameters.Storage) (s : State)
    (registry : VendorRegistry.Storage) : Prop where
  line : Governed d env s.line.admin s.line.parametersContract
  pool : Governed d env s.world.pool.admin s.world.pool.parametersContract
  reputation : Governed d env s.world.reputation.admin s.world.reputation.parametersContract
  registry : Governed d env registry.admin registry.parametersContract
  answer : askParameters d g CreditLine.ProtocolParameters.decode d.parameters
    = .ok s.world.parameters

/-- A proposal of `newWasmHash` at `env` that unlocks `delay` seconds later. -/
def proposalAt (env : Env) (newWasmHash : WasmHash) (delay : Nat) : PendingUpgrade :=
  ⟨newWasmHash, env.timestamp, env.timestamp + delay⟩

/-- What `propose_upgrade` at `env` leaves pending in the contract. -/
def proposing (d : Deployment) (env : Env) (g : Parameters.Storage) (s : State)
    (registry : VendorRegistry.Storage) (newWasmHash : WasmHash) :
    Upgradable → Except Failure (Option PendingUpgrade)
  | .creditLine =>
    (CreditLine.proposeUpgrade (clients d) env newWasmHash s).map (·.pendingUpgrade)
  | .pool =>
    (LiquidityPool.proposeUpgrade (askParameters d g LiquidityPool.ProtocolParameters.decode) env
      newWasmHash s.world.pool).map (·.pendingUpgrade)
  | .reputation =>
    (Reputation.proposeUpgrade (askParameters d g Reputation.ProtocolParameters.decode) env
      newWasmHash s.world.reputation).map (·.pendingUpgrade)
  | .vendorRegistry =>
    (VendorRegistry.proposeUpgrade (askParameters d g VendorRegistry.ProtocolParameters.decode) env
      newWasmHash registry).map (·.pendingUpgrade)

section Proposals

variable {d : Deployment} {env : Env} {g : Parameters.Storage} {s : State}
variable {registry : VendorRegistry.Storage} {params : Parameters.ProtocolParameters}
variable {newWasmHash : WasmHash}

/-- The credit line waits the governed delay. -/
theorem creditLine_waits_iff (hparams : g.params = some params)
    (hpos : 0 < params.upgradeDelaySeconds)
    (hs : Governed d env s.line.admin s.line.parametersContract)
    (hanswer : askParameters d g CreditLine.ProtocolParameters.decode d.parameters
      = .ok s.world.parameters) :
    proposing d env g s registry newWasmHash .creditLine
        = .ok (some (proposalAt env newWasmHash params.upgradeDelaySeconds)) ↔
      env.timestamp + params.upgradeDelaySeconds < 2 ^ 64 := by
  have hread : (CreditLine.getProtocolParameters (clients d) s.line s.world).upgradeDelaySeconds
      = params.upgradeDelaySeconds := by
    rw [askParameters_deployed _ hparams, creditLine_decodes] at hanswer
    simp only [CreditLine.getProtocolParameters, hs.configured, clients, if_true,
      ← Except.ok.inj hanswer, Option.getD_some]
  simp only [proposing, map_ok, CreditLine.proposeUpgrade_ok, hread, upgradeDelay_of_pos hpos]
  constructor
  · intro h
    obtain ⟨p, ⟨-, hfits, -⟩, -⟩ := h
    exact hfits
  · intro hfits
    exact ⟨_, ⟨hs.authorised, hfits, rfl⟩, rfl⟩

/-- A proposal whose read the host ends. -/
theorem proposal_aborts {S : Type} {admin : Option Address} {e : Failure}
    {reading : Except Failure Nat} {next : Nat → Except Failure S}
    (hauth : ∃ a, admin = some a ∧ env.auths a = true) (hread : reading = .error .host) :
    (do
      let a ← demand admin e
      requireAuth env a
      let delay ← reading
      next delay) = .error .host := by
  obtain ⟨a, rfl, hauth⟩ := hauth
  have hsigned : requireAuth env a = .ok () := requireAuth_ok.mpr hauth
  simp only [demand, ok_bind, hsigned, hread]
  rfl

theorem pool_read_fails {pool : LiquidityPool.Storage} (hparams : g.params = some params)
    (hconfigured : pool.parametersContract = some d.parameters) :
    LiquidityPool.getUpgradeDelaySeconds
      (askParameters d g LiquidityPool.ProtocolParameters.decode) pool = .error .host := by
  rw [LiquidityPool.getUpgradeDelaySeconds, hconfigured]
  exact readUpgradeDelay_fails
    ((askParameters_deployed _ hparams).trans (pool_does_not_decode params))

theorem reputation_read_fails {reputation : Reputation.Storage} (hparams : g.params = some params)
    (hconfigured : reputation.parametersContract = some d.parameters) :
    Reputation.getUpgradeDelaySeconds
      (askParameters d g Reputation.ProtocolParameters.decode) reputation = .error .host := by
  rw [Reputation.getUpgradeDelaySeconds, hconfigured]
  exact readUpgradeDelay_fails
    ((askParameters_deployed _ hparams).trans (reputation_does_not_decode params))

theorem vendorRegistry_read_fails (hparams : g.params = some params)
    (hconfigured : registry.parametersContract = some d.parameters) :
    VendorRegistry.getUpgradeDelaySeconds
      (askParameters d g VendorRegistry.ProtocolParameters.decode) registry = .error .host := by
  rw [VendorRegistry.getUpgradeDelaySeconds, hconfigured]
  exact readUpgradeDelay_fails
    ((askParameters_deployed _ hparams).trans (vendorRegistry_does_not_decode params))

/-- In the other three it goes no further than the read. -/
theorem others_abort (hparams : g.params = some params) (hs : AllGoverned d env g s registry)
    {contract : Upgradable} (hne : contract ≠ .creditLine) :
    proposing d env g s registry newWasmHash contract = .error .host := by
  cases contract with
  | creditLine => exact absurd rfl hne
  | pool =>
    exact congrArg (Except.map LiquidityPool.Storage.pendingUpgrade)
      (proposal_aborts hs.pool.authorised (pool_read_fails hparams hs.pool.configured))
  | reputation =>
    exact congrArg (Except.map Reputation.Storage.pendingUpgrade)
      (proposal_aborts hs.reputation.authorised
        (reputation_read_fails hparams hs.reputation.configured))
  | vendorRegistry =>
    exact congrArg (Except.map VendorRegistry.Storage.pendingUpgrade)
      (proposal_aborts hs.registry.authorised
        (vendorRegistry_read_fails hparams hs.registry.configured))

/-- With the real parameters contract configured, whatever delay it has stored, a
proposal waits that long in the credit line, where the sum fits, and in no other
contract: there the call is ended by the host. -/
theorem delay_honoured_iff (hparams : g.params = some params)
    (hpos : 0 < params.upgradeDelaySeconds) (hs : AllGoverned d env g s registry)
    (contract : Upgradable) :
    (proposing d env g s registry newWasmHash contract
        = .ok (some (proposalAt env newWasmHash params.upgradeDelaySeconds)) ↔
      contract = .creditLine ∧ env.timestamp + params.upgradeDelaySeconds < 2 ^ 64) ∧
    (contract ≠ .creditLine →
      proposing d env g s registry newWasmHash contract = .error .host) := by
  refine ⟨?_, others_abort hparams hs⟩
  by_cases hline : contract = .creditLine
  · subst hline
    rw [creditLine_waits_iff hparams hpos hs.line hs.answer]
    exact (and_iff_right rfl).symm
  · simp [others_abort hparams hs hline, hline]

end Proposals

/-! ## Concrete runs -/

/-- The four contracts under the admin `10`, pointing at the parameters contract that
answers `answer`. -/
def sampleGoverned (answer : Option CreditLine.ProtocolParameters) : State where
  line := { CreditLine.Storage.empty with admin := some 10, parametersContract := some 5 }
  world := {
    token := sampleStart.world.token
    pool := { LiquidityPool.Storage.empty with admin := some 10, parametersContract := some 5 }
    reputation := { Reputation.Storage.empty with admin := some 10, parametersContract := some 5 }
    vendors := fun _ => none
    parameters := answer }

def sampleRegistry : VendorRegistry.Storage :=
  { VendorRegistry.Storage.empty with admin := some 10, parametersContract := some 5 }

theorem sampleGoverned_governed {g : Parameters.Storage}
    {answer : Option CreditLine.ProtocolParameters}
    (h : askParameters .sample g CreditLine.ProtocolParameters.decode 5 = .ok answer) :
    AllGoverned .sample (Env.signedBy [10] 100) g (sampleGoverned answer) sampleRegistry where
  line := ⟨⟨10, rfl, rfl⟩, rfl⟩
  pool := ⟨⟨10, rfl, rfl⟩, rfl⟩
  reputation := ⟨⟨10, rfl, rfl⟩, rfl⟩
  registry := ⟨⟨10, rfl, rfl⟩, rfl⟩
  answer := h

def defaultGovernance : Parameters.Storage :=
  { Parameters.Storage.empty with params := some Parameters.defaultParameters }

/-- Even the delay that every contract has built in: the credit line honours it, the
pool's call is ended. -/
theorem delay_honoured_iff_sample : ∃ s : State,
    proposing .sample (Env.signedBy [10] 100) defaultGovernance s sampleRegistry 7 .creditLine
      = .ok (some ⟨7, 100, 100 + 86400⟩) ∧
    proposing .sample (Env.signedBy [10] 100) defaultGovernance s sampleRegistry 7 .pool
      = .error .host := by
  have hparams : defaultGovernance.params = some Parameters.defaultParameters := rfl
  obtain ⟨answer, hanswer⟩ := creditLine_reads .sample defaultGovernance 5
  have hs := sampleGoverned_governed hanswer
  exact ⟨_, (delay_honoured_iff hparams (by decide) hs .creditLine).1.mpr ⟨rfl, by decide⟩,
    (delay_honoured_iff hparams (by decide) hs .pool).2 (by decide)⟩

/-- A delay of two days. -/
def twoDays : Parameters.ProtocolParameters :=
  { Parameters.defaultParameters with upgradeDelaySeconds := 172800 }

def setUpTwoDays : List Parameters.Label := [⟨Env.signedBy [10] 50, .initializeContract 10 twoDays⟩]

/-- The pool initialized and pointed at the parameters contract. -/
def pointPool : List Label :=
  [.by 10 50 (.pool (.initializeContract 10 6 40 41 none)),
    .by 10 60 (.pool (.setParametersContract 5))]

/-- Two days are governed, the pool is pointed there, and its administrator's proposal
is ended by the host: nothing is set to unlock in two days. -/
theorem pool_cannot_propose : ∃ (g : Parameters.Storage) (s : State),
    Reachable Parameters.Deployed Parameters.Step g ∧
    g.params = some twoDays ∧
    Reachable Deployed (Step .sample) s ∧
    s.world.pool.parametersContract = some Deployment.sample.parameters ∧
    s.world.pool.admin = some 10 ∧
    LiquidityPool.proposeUpgrade (askParameters .sample g LiquidityPool.ProtocolParameters.decode)
      (Env.signedBy [10] 100) 7 s.world.pool = .error .host := by
  have hsetUp : (replay Parameters.take .empty setUpTwoDays).toOption.map (fun r => r.2.params)
      = some (some twoDays) := by decide +kernel
  have hpoint : (replay (take .sample) sampleStart pointPool).toOption.map
      (fun r => (r.2.world.pool.parametersContract, r.2.world.pool.admin))
        = some (some 5, some 10) := by decide +kernel
  obtain ⟨_, g, hgov, hparams⟩ := Reachable.of_replay (I := Parameters.Deployed)
    (R := Parameters.Step) hsetUp rfl fun _ _ _ h => h
  obtain ⟨trs, s, hs, hpool⟩ := replay_observed hpoint
  obtain ⟨hconfigured, hadmin⟩ := Prod.mk.injEq .. ▸ hpool
  have hreach : Reachable Deployed (Step .sample) s :=
    (run_of_replay (by decide +kernel) hs).reachable sampleStart_deployed
  refine ⟨g, s, hgov, hparams, hreach, hconfigured, hadmin, ?_⟩
  exact proposal_aborts ⟨10, hadmin, rfl⟩ (pool_read_fails hparams hconfigured)

end StepFi.Protocol

import StepFi.Network.Lending
import StepFi.Protocol.Pause

/-!
# Parameters nothing reads

Governance stores a reward for full repayment and a late fee, and has an action of
its own to set the second. No contract reads either of them: the credit line
rewards by constants and charges a constant fee, and in the other contracts the read
of the parameters fails, whatever they are. Whatever the two are, the same calls go
the same way (`unread_parameters_inert`).
-/

namespace StepFi.Parameters

open Lib

/-- The parameters without the two that are not read. -/
def ProtocolParameters.forget (params : ProtocolParameters) : ProtocolParameters :=
  { params with fullRepaymentReward := 0, lateFeeBps := 0 }

def Storage.forget (p : Storage) : Storage :=
  { p with params := p.params.map ProtocolParameters.forget }

variable {env : Env} {p : Storage}

@[simp] theorem forget_forget (p : Storage) : p.forget.forget = p.forget := by
  simp only [Storage.forget, Option.map_map]
  rfl

theorem wrote_forget {q q' : Storage} (h : q' = q.forget) :
    Except.map Storage.forget (pure q' : Except Failure Storage)
      = Except.map Storage.forget (pure q) := by
  rw [h]
  exact congrArg Except.ok (forget_forget q)

theorem enterNonReentrant_forget :
    enterNonReentrant p.forget = (enterNonReentrant p).map Storage.forget :=
  bind_map fun _ => rfl

theorem invalidateProposal_forget (id : Nat) :
    invalidateProposal p.forget id = (invalidateProposal p id).forget := by
  have hsame : p.forget.proposals = p.proposals := rfl
  unfold invalidateProposal
  rw [hsame]
  split
  · split <;> rfl
  · rfl

theorem invalidateSignerSetProposals_forget (id : Nat) :
    invalidateSignerSetProposals id p.forget = (invalidateSignerSetProposals id p).forget := by
  unfold invalidateSignerSetProposals
  refine List.foldl_hom Storage.forget fun q x => ?_
  split
  · rfl
  · exact invalidateProposal_forget x

/-- Only the setter of the late fee looks at the stored parameters, and what it
writes is forgotten. -/
theorem doAction_forget (proposal : Proposal) :
    (doAction env proposal p.forget).map Storage.forget =
      (doAction env proposal p).map Storage.forget := by
  unfold doAction
  split
  · exact bind_congr_map fun _ => bind_congr_map fun _ => rfl
  · exact bind_congr_map fun _ => wrote_forget rfl
  · exact bind_congr_map fun _ => wrote_forget rfl
  · refine bind_congr_map fun _ => ?_
    rename_i config _ _
    have hsweep := invalidateSignerSetProposals_forget
      (p := { p with multisig := some config }) proposal.id
    have hsame : { p.forget with multisig := some config }
        = Storage.forget { p with multisig := some config } := rfl
    rw [hsame]
    exact wrote_forget hsweep
  · have hparams : getParameters p.forget = (getParameters p).map ProtocolParameters.forget := by
      unfold getParameters Storage.forget
      cases p.params <;> rfl
    exact map_bind_congr hparams fun params => bind_congr_map fun _ => rfl

theorem execute_forget (id : Nat) :
    (execute env id p.forget).map Storage.forget = (execute env id p).map Storage.forget := by
  unfold execute
  refine bind_congr_map fun proposal => bind_congr_map fun _ => bind_congr_map fun config =>
    bind_congr_map fun _ => bind_congr_map fun _ => ?_
  refine map_bind_congr enterNonReentrant_forget fun q => ?_
  refine bind_congr_through (doAction_forget proposal) fun a a' ha => ?_
  have hsame : (exitNonReentrant (setProposal { proposal with executed := true } a')).forget
      = (exitNonReentrant (setProposal { proposal with executed := true } a)).forget :=
    congrArg (fun q => exitNonReentrant (setProposal { proposal with executed := true } q)) ha
  exact congrArg Except.ok hsame

theorem exec_forget (call : Call) :
    (exec env call p.forget).map Storage.forget = (exec env call p).map Storage.forget := by
  cases call with
  | initializeContract admin params =>
    exact bind_congr_map fun _ => bind_congr_map fun _ => bind_congr_map fun _ => rfl
  | initializeDefaults admin =>
    exact bind_congr_map fun _ => bind_congr_map fun _ => bind_congr_map fun _ => rfl
  | configureMultisig config =>
    refine bind_congr_map fun _ => bind_congr_map fun _ => bind_congr_map fun _ =>
      bind_congr_map fun _ => bind_congr_map fun _ => ?_
    exact map_bind_congr enterNonReentrant_forget fun q => wrote_forget rfl
  | confirmMultisig =>
    refine bind_congr_map fun _ => bind_congr_map fun _ => bind_congr_map fun _ =>
      bind_congr_map fun _ => bind_congr_map fun _ => ?_
    exact map_bind_congr enterNonReentrant_forget fun q => wrote_forget rfl
  | propose proposer action =>
    have hnext : nextProposalId p.forget
        = (nextProposalId p).map fun r => (r.1, r.2.forget) := bind_map fun _ => rfl
    have hpropose : propose env proposer action p.forget
        = (propose env proposer action p).map fun r => (r.1, r.2.forget) :=
      bind_map fun _ => bind_map fun _ => bind_map fun _ => bind_map fun config =>
        bind_map fun expiresAt => map_bind_of_eq hnext fun next => rfl
    simp only [exec, hpropose]
    cases propose env proposer action p with
    | error e => rfl
    | ok r => exact wrote_forget rfl
  | approve signer id =>
    exact bind_congr_map fun _ => bind_congr_map fun _ => bind_congr_map fun proposal =>
      bind_congr_map fun _ => bind_congr_map fun _ => bind_congr_map fun _ => wrote_forget rfl
  | execute id => exact execute_forget id

end StepFi.Parameters

/-! ## The credit line among contracts it reads less of -/

namespace StepFi.Protocol

open Lib CreditLine

/-- The parameters without the two that are not read, in the credit line's copy. -/
def forgetParameters (params : CreditLine.ProtocolParameters) : CreditLine.ProtocolParameters :=
  { params with fullRepaymentReward := 0, lateFeeBps := 0 }

/-- The other contracts answer and act the same on related worlds, but for the two
parameters. -/
structure Ignores {W : Type} (c : Clients W) (k : W → W) : Prop extends Blind c k where
  reads : ∀ p w, forgetParameters (getProtocolParameters c p (k w))
    = forgetParameters (getProtocolParameters c p w)
  balance : ∀ token account w, c.balance token account (k w) = c.balance token account w
  isActive : ∀ registry vendor w, c.isActive registry vendor (k w) = c.isActive registry vendor w
  getScore : ∀ reputation user w, c.getScore reputation user (k w) = c.getScore reputation user w
  getPoolStats : ∀ pool w, c.getPoolStats pool (k w) = c.getPoolStats pool w
  decreaseScore : ∀ env reputation updater user amount w,
    c.decreaseScore env reputation updater user amount (k w) =
      (c.decreaseScore env reputation updater user amount w).map k
  fundLoan : ∀ env pool creditline merchant amount w,
    c.fundLoan env pool creditline merchant amount (k w) =
      (c.fundLoan env pool creditline merchant amount w).map k
  receiveGuarantee : ∀ env pool creditline amount w,
    c.receiveGuarantee env pool creditline amount (k w) =
      (c.receiveGuarantee env pool creditline amount w).map k
  absorbLoss : ∀ env pool creditline shortfall w,
    c.absorbLoss env pool creditline shortfall (k w) =
      (c.absorbLoss env pool creditline shortfall w).map k

theorem Blind.refl {W : Type} (c : Clients W) : Blind c id where
  transfer := fun _ _ _ _ _ _ => (congrFun Except.map_id _).symm
  receiveRepayment := fun _ _ _ _ _ _ => (congrFun Except.map_id _).symm
  increaseScore := fun _ _ _ _ _ _ => (congrFun Except.map_id _).symm

section Line

variable {W : Type} {c : Clients W} {k : W → W} {env : Env} {p : Storage} {w : W}
variable {s : CreditLine.State W} {r : LoanRequest} {score : Nat}

/-- The state with its world mapped, and a result that carries one. -/
def onWorld (k : W → W) (s : CreditLine.State W) : CreditLine.State W := ⟨s.line, k s.world⟩

def resultOn {α : Type} (k : W → W) (r : α × CreditLine.State W) : α × CreditLine.State W :=
  (r.1, onWorld k r.2)

/-! ### What is read -/

theorem Ignores.field {α : Type} (hc : Ignores c k) (f : CreditLine.ProtocolParameters → α)
    (hf : ∀ x, f (forgetParameters x) = f x) :
    f (getProtocolParameters c p (k w)) = f (getProtocolParameters c p w) := by
  have h := congrArg f (hc.reads p w)
  rwa [hf, hf] at h

theorem validateGuarantee_ignores (hc : Ignores c k) {total guarantee : Int} :
    validateGuarantee c p (k w) total guarantee = validateGuarantee c p w total guarantee := by
  have hpercent := hc.field (p := p) (w := w) (·.minGuaranteePercent) fun _ => rfl
  unfold validateGuarantee
  dsimp only at hpercent ⊢
  rw [hpercent]

theorem validateVendor_ignores (hc : Ignores c k) {vendor : Address} :
    validateVendor c p (k w) vendor = validateVendor c p w vendor := by
  unfold validateVendor
  simp only [hc.isActive]

theorem validateReputation_ignores (hc : Ignores c k) {user : Address} :
    validateReputation c p (k w) user = validateReputation c p w user := by
  have hthreshold := hc.field (p := p) (w := w) (·.minReputationThreshold) fun _ => rfl
  unfold validateReputation
  dsimp only at hthreshold ⊢
  simp only [hc.getScore, hthreshold]

theorem validateLiquidity_ignores (hc : Ignores c k) {total guarantee : Int} :
    validateLiquidity c p (k w) total guarantee = validateLiquidity c p w total guarantee := by
  unfold validateLiquidity
  simp only [hc.getPoolStats]

theorem interestRateBps_ignores (hc : Ignores c k) :
    interestRateBps c p (k w) score = interestRateBps c p w score := by
  have hbase := hc.field (p := p) (w := w) (·.baseInterestBps) fun _ => rfl
  unfold interestRateBps
  dsimp only at hbase ⊢
  rw [hbase]

theorem calculateDefaultPenalty_ignores (hc : Ignores c k) {loan : Loan} :
    calculateDefaultPenalty c p (k w) loan = calculateDefaultPenalty c p w loan :=
  hc.field (fun params =>
    if params.largeLoanThreshold < loan.totalAmount then params.largeLoanDefaultPenalty
    else params.defaultPenalty) fun _ => rfl

theorem graceEndsAt_ignores (hc : Ignores c k) {now : Nat} {loan : Loan} :
    graceEndsAt c now p (k w) loan = graceEndsAt c now p w loan := by
  have hgrace := hc.field (p := p) (w := w) (·.gracePeriodSeconds) fun _ => rfl
  unfold graceEndsAt
  simp only [hgrace]

theorem buildLoan_ignores (hc : Ignores c k) {status : LoanStatus} :
    buildLoan c env r score status p (k w) = buildLoan c env r score status p w := by
  unfold buildLoan
  rw [validateGuarantee_ignores hc, validateVendor_ignores hc, interestRateBps_ignores hc]

/-! ### What is done -/

theorem pullGuarantee_ignores (hc : Ignores c k) {borrower : Address} {guarantee : Int} :
    pullGuarantee c env p borrower guarantee (k w)
      = (pullGuarantee c env p borrower guarantee w).map k :=
  bind_map fun _ => hc.transfer ..

theorem fundLoanFromPool_ignores (hc : Ignores c k) {borrower vendor : Address}
    {guarantee contribution : Int} {pull : Bool} :
    fundLoanFromPool c env p borrower vendor guarantee contribution pull (k w)
      = (fundLoanFromPool c env p borrower vendor guarantee contribution pull w).map k := by
  have hpull : (if pull then pullGuarantee c env p borrower guarantee (k w) else .ok (k w))
      = (if pull then pullGuarantee c env p borrower guarantee w else .ok w).map k := by
    cases pull with
    | false => rfl
    | true => exact pullGuarantee_ignores hc
  refine bind_map fun pool => map_bind_of_eq hpull fun w₁ => ?_
  split
  · exact hc.fundLoan ..
  · rfl

theorem penalizeDefault_ignores (hc : Ignores c k) {loan : Loan} :
    penalizeDefault c env p loan (k w) = (penalizeDefault c env p loan w).map k := by
  unfold penalizeDefault
  rw [calculateDefaultPenalty_ignores hc]
  cases p.reputationContract with
  | none => rfl
  | some reputation =>
    dsimp only
    rw [hc.decreaseScore]
    generalize c.decreaseScore _ _ _ _ _ w = x
    cases x with
    | error e => rfl
    | ok w' => rfl

theorem realizeDefault_ignores (hc : Ignores c k) {pool : Address} {loan : Loan} :
    realizeDefault c env p pool loan (k w) = (realizeDefault c env p pool loan w).map k := by
  refine bind_map fun token => map_bind_of_eq (hc.receiveGuarantee ..) fun w₁ => ?_
  split
  · exact map_bind_of_eq (hc.absorbLoss ..) fun w₂ => penalizeDefault_ignores hc
  · exact penalizeDefault_ignores hc

/-! ### The entry points -/

theorem createLoan_ignores (hc : Ignores c k) :
    createLoan c env r (onWorld k s) = (createLoan c env r s).map (resultOn k) := by
  unfold createLoan
  simp only [onWorld, validateGuarantee_ignores hc, validateVendor_ignores hc,
    validateReputation_ignores hc, validateLiquidity_ignores hc, buildLoan_ignores hc]
  refine bind_map fun _ => bind_map fun _ => bind_map fun _ => bind_map fun _ =>
    bind_map fun score => bind_map fun _ => bind_map fun line => bind_map fun built => ?_
  refine bind_map fun line => bind_map fun line => bind_map fun contribution => ?_
  exact map_bind_of_eq (fundLoanFromPool_ignores hc) fun w => rfl

theorem requestLoan_ignores (hc : Ignores c k) :
    requestLoan c env r (onWorld k s) = (requestLoan c env r s).map (resultOn k) := by
  unfold requestLoan
  simp only [onWorld, validateGuarantee_ignores hc, validateReputation_ignores hc,
    buildLoan_ignores hc]
  refine bind_map fun _ => bind_map fun _ => bind_map fun _ => bind_map fun score =>
    bind_map fun built => ?_
  exact map_bind_of_eq (pullGuarantee_ignores hc) fun w => bind_map fun line => rfl

theorem approveLoan_ignores (hc : Ignores c k) {id : Nat} :
    approveLoan c env id (onWorld k s) = (approveLoan c env id s).map (resultOn k) := by
  unfold approveLoan
  simp only [onWorld, validateVendor_ignores hc, validateReputation_ignores hc,
    validateLiquidity_ignores hc]
  refine bind_map fun admin => bind_map fun _ => bind_map fun _ => bind_map fun loan =>
    bind_map fun _ => bind_map fun _ => bind_map fun _ => ?_
  refine bind_map fun _ => bind_map fun score => bind_map fun _ => bind_map fun line =>
    bind_map fun line => bind_map fun contribution => ?_
  exact map_bind_of_eq (fundLoanFromPool_ignores hc) fun w => bind_map fun line => rfl

theorem cancelLoan_ignores (hc : Ignores c k) {caller : Address} {id : Nat} :
    cancelLoan c env caller id (onWorld k s) = (cancelLoan c env caller id s).map (onWorld k) := by
  unfold cancelLoan
  simp only [onWorld, hc.balance]
  refine bind_map fun _ => bind_map fun _ => bind_map fun loan => bind_map fun _ =>
    bind_map fun admin => bind_map fun _ => bind_map fun token => bind_map fun balance => ?_
  refine bind_map fun _ => bind_map fun line => bind_map fun line => ?_
  refine map_bind_of_eq (g := k) ?_ fun w => rfl
  split
  · exact hc.transfer ..
  · rfl

/-- With the flag as it stands, what is left of a repayment is its world. -/
theorem settle_ignores (hc : Ignores c k) {borrower : Address} {loanId : Nat} {amount : Int}
    {check : Loan → Except Failure Unit}
    {mark : List RepaymentInstallment → List RepaymentInstallment} :
    settle c env borrower loanId amount check mark (onWorld k s)
      = (settle c env borrower loanId amount check mark s).map (resultOn k) := by
  have hself : settle c env borrower loanId amount check mark s
      = (settle c env borrower loanId amount check mark s).map (resultAs s.line.paused id) :=
    settle_blind (Blind.refl c)
  have hmapped : settle c env borrower loanId amount check mark (onWorld k s)
      = (settle c env borrower loanId amount check mark s).map (resultAs s.line.paused k) :=
    settle_blind hc.toBlind
  refine hmapped.trans ?_
  cases hr : settle c env borrower loanId amount check mark s with
  | error e => rfl
  | ok r =>
    have hflag : r = resultAs s.line.paused id r := by
      rw [hr] at hself
      exact Except.ok.inj hself
    have hline := congrArg (fun r : Int × CreditLine.State W => r.2.line) hflag
    exact congrArg (fun line => Except.ok (r.1, (⟨line, k r.2.world⟩ : CreditLine.State W)))
      hline.symm

theorem applyLateFees_ignores {id : Nat} :
    applyLateFees env id (onWorld k s) = (applyLateFees env id s).map (onWorld k) := by
  unfold applyLateFees
  refine bind_map fun loan => bind_map fun _ => bind_map fun accrued => ?_
  split
  · rfl
  · exact bind_map fun line => bind_map fun line => rfl

theorem warnGracePeriod_ignores (hc : Ignores c k) {id : Nat} :
    warnGracePeriod c env id (onWorld k s) = warnGracePeriod c env id s := by
  unfold warnGracePeriod
  simp only [onWorld, graceEndsAt_ignores hc]

theorem markDefaulted_ignores (hc : Ignores c k) {id : Nat} :
    markDefaulted c env id (onWorld k s) = (markDefaulted c env id s).map (onWorld k) := by
  unfold markDefaulted
  simp only [onWorld, graceEndsAt_ignores hc]
  refine bind_map fun _ => bind_map fun loan => bind_map fun _ => bind_map fun ends =>
    bind_map fun _ => bind_map fun pool => bind_map fun line => bind_map fun line =>
    bind_map fun line => ?_
  exact map_bind_of_eq (realizeDefault_ignores hc) fun w => rfl

theorem proposeUpgrade_ignores (hc : Ignores c k) {newWasmHash : WasmHash} :
    proposeUpgrade c env newWasmHash (onWorld k s) = proposeUpgrade c env newWasmHash s := by
  have hdelay := hc.field (p := s.line) (w := s.world) (·.upgradeDelaySeconds) fun _ => rfl
  unfold proposeUpgrade
  dsimp only [onWorld] at hdelay ⊢
  simp only [hdelay]

theorem lift_onWorld (x : Except Failure Storage) :
    (onWorld k s).lift x = (s.lift x).map (onWorld k) := by
  cases x <;> rfl

theorem returned_onWorld {α : Type} {x x' : Except Failure (α × CreditLine.State W)}
    (h : x' = x.map (resultOn k)) : x'.map Prod.snd = (x.map Prod.snd).map (onWorld k) := by
  subst h
  cases x <;> rfl

theorem exec_ignores (hc : Ignores c k) (call : CreditLine.Call) :
    CreditLine.exec c env call (onWorld k s)
      = (CreditLine.exec c env call s).map (onWorld k) := by
  cases call with
  | createLoan request => exact returned_onWorld (createLoan_ignores hc)
  | requestLoan request => exact returned_onWorld (requestLoan_ignores hc)
  | approveLoan id => exact returned_onWorld (approveLoan_ignores hc)
  | cancelLoan caller id => exact cancelLoan_ignores hc
  | repayLoan borrower id amount => exact returned_onWorld (settle_ignores hc)
  | repayInstallment borrower id index amount => exact returned_onWorld (settle_ignores hc)
  | applyLateFees id => exact applyLateFees_ignores
  | markDefaulted id => exact markDefaulted_ignores hc
  | warnGracePeriod id =>
    simp only [CreditLine.exec, warnGracePeriod_ignores hc]
    cases warnGracePeriod c env id s <;> rfl
  | proposeUpgrade newWasmHash =>
    simp only [CreditLine.exec, proposeUpgrade_ignores hc]
    exact lift_onWorld _
  | _ => exact lift_onWorld _

end Line

/-! ### The real contracts -/

/-- The world with its answer of parameters reduced to what is read. -/
def World.forget (w : World) : World := { w with parameters := w.parameters.map forgetParameters }

theorem callPool_forget {d : Deployment} {pool : Address} {w : World}
    {f : LiquidityPool.State → Except Failure LiquidityPool.State} :
    callPool d pool f w.forget = (callPool d pool f w).map World.forget :=
  bind_map fun _ => bind_map fun _ => rfl

theorem callReputation_forget {d : Deployment} {reputation : Address} {w : World}
    {f : Reputation.Storage → Except Failure Reputation.Storage} :
    callReputation d reputation f w.forget = (callReputation d reputation f w).map World.forget :=
  bind_map fun _ => bind_map fun _ => rfl

theorem clients_ignores (d : Deployment) : Ignores (clients d) World.forget where
  transfer := by
    intro env token source target amount w
    dsimp only [clients, World.forget]
    cases Token.transferAt d env d.creditLine token source target amount w.token <;> rfl
  receiveRepayment := fun _ _ _ _ _ _ => callPool_forget
  increaseScore := fun _ _ _ _ _ _ => callReputation_forget
  reads := by
    intro p w
    simp only [getProtocolParameters]
    cases p.parametersContract with
    | none => rfl
    | some address =>
      simp only [clients, World.forget]
      split
      · cases w.parameters <;> rfl
      · rfl
  balance := fun _ _ _ => rfl
  isActive := fun _ _ _ => rfl
  getScore := fun _ _ _ => rfl
  getPoolStats := fun _ _ => rfl
  decreaseScore := fun _ _ _ _ _ _ => callReputation_forget
  fundLoan := fun _ _ _ _ _ _ => callPool_forget
  receiveGuarantee := fun _ _ _ _ _ => callPool_forget
  absorbLoss := fun _ _ _ _ _ => callPool_forget

end StepFi.Protocol

/-! ## The network -/

namespace StepFi.Network

open Lib

variable {n : Site} {s t : State} {l : Label}

/-- The network without the two parameters, wherever they stand. -/
def State.forget (s : State) : State := { s with governance := s.governance.forget }

theorem wrote_forget {s' : State} (h : s' = s.forget) :
    (pure s' : Except Failure State).map State.forget
      = (pure s : Except Failure State).map State.forget := by
  rw [h]
  exact congrArg (fun governance => Except.ok { s with governance })
    (Parameters.forget_forget s.governance)

theorem getParameters_forget (g : Parameters.Storage) :
    Parameters.getParameters g.forget
      = (Parameters.getParameters g).map Parameters.ProtocolParameters.forget := by
  unfold Parameters.getParameters Parameters.Storage.forget
  cases g.params <;> rfl

/-- The credit line reads the same, but for the two parameters. -/
theorem askParameters_line (g : Parameters.Storage) (a : Address) :
    Protocol.askParameters n.core g.forget CreditLine.ProtocolParameters.decode a
      = (Protocol.askParameters n.core g CreditLine.ProtocolParameters.decode a).map
          (Option.map Protocol.forgetParameters) := by
  unfold Protocol.askParameters
  rw [getParameters_forget]
  split
  · cases Parameters.getParameters g with
    | error e => rfl
    | ok params =>
      have hforgotten := Protocol.creditLine_decodes params.forget
      have hread := Protocol.creditLine_decodes params
      simp only [Except.map, hforgotten, hread]
      rfl
  · rfl

/-- A contract that never gets the struct unpacked reads the same. -/
theorem askParameters_undecoded {α : Type} {decode : Fields → Reply α} {e : Failure}
    (hdecode : ∀ params : Parameters.ProtocolParameters, decode params.encode = .error e)
    (g : Parameters.Storage) :
    Protocol.askParameters n.core g.forget decode = Protocol.askParameters n.core g decode := by
  funext a
  unfold Protocol.askParameters
  rw [getParameters_forget]
  cases Parameters.getParameters g with
  | error e => rfl
  | ok params => simp only [Except.map, hdecode]

theorem poolCall_forget (call : LiquidityPool.Call) :
    poolCall n s.forget call = poolCall n s call := by
  cases call with
  | proposeUpgrade ask newWasmHash =>
    exact congrArg (LiquidityPool.Call.proposeUpgrade · newWasmHash)
      (askParameters_undecoded Protocol.pool_does_not_decode s.governance)
  | _ => rfl

theorem reputationCall_forget (call : Reputation.Call) :
    reputationCall n s.forget call = reputationCall n s call := by
  cases call with
  | proposeUpgrade ask newWasmHash =>
    exact congrArg (Reputation.Call.proposeUpgrade · newWasmHash)
      (askParameters_undecoded Protocol.reputation_does_not_decode s.governance)
  | _ => rfl

theorem registryCall_forget (call : VendorRegistry.Call) :
    registryCall n s.forget call = registryCall n s call := by
  cases call with
  | proposeUpgrade ask newWasmHash =>
    exact congrArg (VendorRegistry.Call.proposeUpgrade · newWasmHash)
      (askParameters_undecoded Protocol.vendorRegistry_does_not_decode s.governance)
  | _ => rfl

theorem protocol_forget :
    s.forget.protocol n = Protocol.onWorld Protocol.World.forget (s.protocol n) := by
  have hreads :=
    congrArg Reply.answer (askParameters_line (n := n) s.governance n.core.parameters)
  have hanswer : ∀ r : Reply CreditLine.ProtocolParameters,
      Reply.answer (r.map (Option.map Protocol.forgetParameters))
        = r.answer.map Protocol.forgetParameters := by
    rintro (e | answer) <;> rfl
  rw [hanswer] at hreads
  exact congrArg
    (fun answer => (⟨s.line, { s.world n with parameters := answer }⟩ : Protocol.State)) hreads

/-- A call does the same without the two parameters, failures included. -/
theorem take_forget (n : Site) (s : State) (l : Label) :
    (take n s.forget l).map State.forget = (take n s l).map State.forget := by
  rcases l with ⟨env, action⟩
  cases action with
  | line call =>
    have hcall : CreditLine.exec (Protocol.clients n.core) env call
        (Protocol.onWorld Protocol.World.forget (s.protocol n))
        = (CreditLine.exec (Protocol.clients n.core) env call (s.protocol n)).map
            (Protocol.onWorld Protocol.World.forget) :=
      Protocol.exec_ignores (Protocol.clients_ignores n.core) call
    simp only [take, protocol_forget, hcall]
    exact map_bind_congr rfl fun t => wrote_forget rfl
  | pool call =>
    simp only [take, poolCall_forget]
    exact bind_congr_map fun _ => wrote_forget rfl
  | reputation call =>
    simp only [take, reputationCall_forget]
    exact bind_congr_map fun _ => wrote_forget rfl
  | registry call =>
    simp only [take, registryCall_forget]
    exact bind_congr_map fun _ => wrote_forget rfl
  | governance call =>
    have hcall : (Parameters.exec env call s.forget.governance).map Parameters.Storage.forget
        = (Parameters.exec env call s.governance).map Parameters.Storage.forget :=
      Parameters.exec_forget call
    refine bind_congr_through hcall fun p p' hp => ?_
    exact congrArg (fun governance => Except.ok { s with governance }) hp
  | vouching call => exact bind_congr_map fun _ => wrote_forget rfl
  | transfer source target amount =>
    exact bind_congr_map fun _ => bind_congr_map fun _ => wrote_forget rfl
  | mint target amount => exact bind_congr_map fun _ => wrote_forget rfl

theorem take_same (n : Site) {s t : State} (h : s.forget = t.forget) (l : Label) :
    (take n s l).map State.forget = (take n t l).map State.forget := by
  rw [← take_forget n s l, h, take_forget n t l]

/-- Networks that differ only in the stored reward for full repayment and late fee
take the same calls, fail in the same ones, and go on differing in the two only. -/
theorem unread_parameters_inert (n : Site) {s t : State} (h : s.forget = t.forget)
    (ls : List Label) :
    (replay (take n) s ls).map (fun r => r.2.forget)
      = (replay (take n) t ls).map fun r => r.2.forget :=
  replay_seen (fun _ _ l hseen => take_same n hseen l) h ls

/-- The network with another late fee governed. -/
def State.withLateFee (s : State) (bps : Nat) : State :=
  { s with governance := { s.governance with
      params := s.governance.params.map fun params => { params with lateFeeBps := bps } } }

theorem withLateFee_forget (s : State) (bps : Nat) : (s.withLateFee bps).forget = s.forget := by
  have hparams : (s.governance.params.map fun params : Parameters.ProtocolParameters =>
      { params with lateFeeBps := bps }).map Parameters.ProtocolParameters.forget
      = s.governance.params.map Parameters.ProtocolParameters.forget := by
    rw [Option.map_map]
    rfl
  exact congrArg (fun params => { s with governance := { s.governance with params } }) hparams

/-- A loan overdue for three days, and what it is charged. -/
def overdue : List Label :=
  [openLoan 21, .by 21 261200 (.line (.applyLateFees 1))]

/-- Governing a late fee of `900` instead of `500` changes nothing: the loan is
charged `16` either way. -/
theorem unread_parameters_inert_sample : ∃ s : State,
    s.governance.params.map (·.lateFeeBps) = some 500 ∧
    (replay (take .sample) s overdue).toOption.map
      (fun r => (r.2.line.book.loan 1).map (·.lateFeesOutstanding)) = some (some 16) ∧
    (replay (take .sample) (s.withLateFee 900) overdue).map (fun r => r.2.forget)
      = (replay (take .sample) s overdue).map fun r => r.2.forget := by
  have hreplay : (replay (take .sample) sampleStart (setUp ++ prepare)).toOption.map
      (fun r => (r.2.governance.params.map (·.lateFeeBps),
        (replay (take .sample) r.2 overdue).toOption.map
          fun r => (r.2.line.book.loan 1).map (·.lateFeesOutstanding)))
      = some (some 500, some (some 16)) := by decide +kernel
  obtain ⟨tr, s, hr, hobs⟩ := replay_observed hreplay
  simp only [Prod.mk.injEq] at hobs
  exact ⟨s, hobs.1, hobs.2, unread_parameters_inert .sample (withLateFee_forget s 900) overdue⟩

end StepFi.Network

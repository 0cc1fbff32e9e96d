import StepFi.Protocol.Funds

/-!
# Pausing

A repayment reads neither the credit line's pause flag nor the pool's: on two
states that differ in the flags only it has the same result, failures included,
and leaves states that differ in the flags only. Everything else stands still
while the credit line is paused.
-/

namespace StepFi.Protocol

open Lib CreditLine

/-! ## The credit line's part -/

section Line

variable {b : Bool} {p : Storage}

/-- The storage with its pause flag set to `b`. -/
def linePausedAs (b : Bool) (p : Storage) : Storage := { p with paused := b }

theorem enterNonReentrant_pausedAs :
    enterNonReentrant (linePausedAs b p) = (enterNonReentrant p).map (linePausedAs b) :=
  bind_map fun _ => rfl

theorem increaseUserActiveDebt_pausedAs {borrower : Address} {amount : Int} :
    increaseUserActiveDebt borrower amount (linePausedAs b p) =
      (increaseUserActiveDebt borrower amount p).map (linePausedAs b) :=
  bind_map fun _ => rfl

theorem decreaseUserActiveDebt_pausedAs {borrower : Address} {amount : Int} :
    decreaseUserActiveDebt borrower amount (linePausedAs b p) =
      (decreaseUserActiveDebt borrower amount p).map (linePausedAs b) :=
  bind_map fun _ => rfl

theorem addAccruedFee_pausedAs {borrower : Address} {fee : Int} :
    addAccruedFee borrower fee (linePausedAs b p) =
      (addAccruedFee borrower fee p).map (linePausedAs b) := by
  unfold addAccruedFee
  split
  · exact increaseUserActiveDebt_pausedAs
  · rfl

theorem writeLoan_pausedAs {loan : Loan} :
    writeLoan loan (linePausedAs b p) = (writeLoan loan p).map (linePausedAs b) := by
  have hloans : (linePausedAs b p).loans = p.loans := rfl
  unfold writeLoan
  rw [hloans]
  split
  · exact bind_map fun _ => rfl
  · rfl

end Line

/-! ## A repayment among contracts that a map relates -/

section Settle

variable {W : Type} {c : Clients W} {k : W → W} {b : Bool} {env : Env} {w : W}

/-- The calls of a repayment do the same on related worlds. -/
structure Blind (c : Clients W) (k : W → W) : Prop where
  transfer : ∀ env token source target amount w,
    c.transfer env token source target amount (k w) =
      (c.transfer env token source target amount w).map k
  receiveRepayment : ∀ env pool creditline principal interest w,
    c.receiveRepayment env pool creditline principal interest (k w) =
      (c.receiveRepayment env pool creditline principal interest w).map k
  increaseScore : ∀ env reputation updater user amount w,
    c.increaseScore env reputation updater user amount (k w) =
      (c.increaseScore env reputation updater user amount w).map k

theorem rewardRepayment_blind (hc : Blind c k) {p : Storage} {borrower : Address} {loan : Loan} :
    rewardRepayment c env (linePausedAs b p) borrower loan (k w) =
      (rewardRepayment c env p borrower loan w).map k := by
  have haddress : (linePausedAs b p).reputationContract = p.reputationContract := rfl
  unfold rewardRepayment handleReputationIncrease
  rw [haddress]
  cases p.reputationContract with
  | none => rfl
  | some reputation =>
    dsimp only
    rw [hc.increaseScore]
    generalize c.increaseScore _ _ _ _ _ w = r
    cases r with
    | error e => rfl
    | ok w' => rfl

theorem forwardRepayment_blind (hc : Blind c k) {p : Storage} {borrower : Address} {amount : Int}
    {allocation : RepaymentAllocation} {loan : Loan} :
    forwardRepayment c env (linePausedAs b p) borrower amount allocation loan (k w) =
      (forwardRepayment c env p borrower amount allocation loan w).map k := by
  unfold forwardRepayment
  refine bind_map fun pool => bind_map fun token => ?_
  rw [hc.transfer]
  refine map_bind_map fun w₁ => bind_map fun service => bind_map fun interest => ?_
  rw [hc.receiveRepayment]
  refine map_bind_map fun w₂ => ?_
  split
  · rw [hc.transfer]
    exact map_bind_map fun w₃ => rewardRepayment_blind hc
  · rfl

/-- The result of a repayment with the pause flag of its state set, and its world
mapped. -/
def resultAs {α : Type} (b : Bool) (k : W → W) (r : α × CreditLine.State W) :
    α × CreditLine.State W :=
  (r.1, ⟨linePausedAs b r.2.line, k r.2.world⟩)

theorem settle_blind (hc : Blind c k) {borrower : Address} {loanId : Nat} {amount : Int}
    {check : Loan → Except Failure Unit}
    {mark : List RepaymentInstallment → List RepaymentInstallment} {s : CreditLine.State W} :
    settle c env borrower loanId amount check mark ⟨linePausedAs b s.line, k s.world⟩ =
      (settle c env borrower loanId amount check mark s).map (resultAs b k) := by
  unfold settle
  -- the guards read neither flag
  refine bind_map fun _ => bind_map fun loan => bind_map fun _ => bind_map fun _ =>
    bind_map fun _ => bind_map fun accrued => ?_
  dsimp only
  rw [addAccruedFee_pausedAs]
  refine map_bind_map fun p₁ => bind_map fun _ => ?_
  rw [enterNonReentrant_pausedAs]
  refine map_bind_map fun p₂ => bind_map fun paid => ?_
  rw [decreaseUserActiveDebt_pausedAs]
  refine map_bind_map fun p₃ => ?_
  rw [writeLoan_pausedAs]
  refine map_bind_map fun p₄ => ?_
  rw [forwardRepayment_blind hc]
  exact map_bind_map fun w => rfl

end Settle

/-! ## The pool's part -/

section Pool

variable {d : Deployment} {b : Bool} {env : Env} {w : World}

def poolPausedAs (b : Bool) (p : LiquidityPool.Storage) : LiquidityPool.Storage :=
  { p with paused := b }

theorem poolEnterNonReentrant_pausedAs {p : LiquidityPool.Storage} :
    LiquidityPool.enterNonReentrant (poolPausedAs b p) =
      (LiquidityPool.enterNonReentrant p).map (poolPausedAs b) :=
  bind_map fun _ => rfl

def poolStatePausedAs (b : Bool) (s : LiquidityPool.State) : LiquidityPool.State :=
  { s with pool := poolPausedAs b s.pool }

theorem distributeInterestInternal_pausedAs {interest : Int} {s : LiquidityPool.State} :
    LiquidityPool.distributeInterestInternal d env interest (poolStatePausedAs b s) =
      (LiquidityPool.distributeInterestInternal d env interest s).map (poolStatePausedAs b) := by
  unfold LiquidityPool.distributeInterestInternal
  refine bind_map fun _ => ?_
  -- the shares
  refine bind_map fun lpScaled => ?_
  refine bind_map fun lpAmount => ?_
  refine bind_map fun protocolScaled => ?_
  refine bind_map fun protocolAmount => ?_
  refine bind_map fun afterLp => ?_
  refine bind_map fun merchantAmount => ?_
  -- the payments
  refine bind_map fun token => ?_
  refine bind_map fun ledger => ?_
  refine bind_map fun ledger => ?_
  exact bind_map fun newTotal => rfl

theorem distribution_pausedAs {interest : Int} {s : LiquidityPool.State} :
    (if 0 < interest then
        LiquidityPool.distributeInterestInternal d env interest (poolStatePausedAs b s)
      else .ok (poolStatePausedAs b s)) =
      (if 0 < interest then LiquidityPool.distributeInterestInternal d env interest s
        else .ok s).map (poolStatePausedAs b) := by
  split
  · exact distributeInterestInternal_pausedAs
  · rfl

theorem receiveRepayment_pausedAs {creditline : Address} {principal interest : Int}
    {s : LiquidityPool.State} :
    LiquidityPool.receiveRepayment d env creditline principal interest (poolStatePausedAs b s) =
      (LiquidityPool.receiveRepayment d env creditline principal interest s).map
        (poolStatePausedAs b) := by
  unfold LiquidityPool.receiveRepayment
  refine bind_map fun _ => bind_map fun _ => bind_map fun _ => bind_map fun total =>
    bind_map fun _ => ?_
  refine map_bind_of_eq poolEnterNonReentrant_pausedAs fun p => bind_map fun unlocked =>
    bind_map fun token => bind_map fun ledger => ?_
  let unlockedPool : LiquidityPool.Storage := { p with lockedLiquidity := max 0 unlocked }
  exact map_bind_of_eq (distribution_pausedAs (s := ⟨unlockedPool, ledger⟩)) fun s' => rfl

def worldPausedAs (b : Bool) (w : World) : World := { w with pool := poolPausedAs b w.pool }

theorem clients_blind : Blind (clients d) (worldPausedAs b) where
  transfer := by
    intro env token source target amount w
    dsimp only [clients]
    generalize htransfer :
      Token.transferAt d env d.creditLine token source target amount w.token = r
    have hsame : (worldPausedAs b w).token = w.token := rfl
    rw [hsame, htransfer]
    cases r with
    | error e => rfl
    | ok t => rfl
  receiveRepayment := by
    intro env pool creditline principal interest w
    refine bind_map fun _ => ?_
    exact map_bind_of_eq (receiveRepayment_pausedAs (s := ⟨w.pool, w.token⟩)) fun s => rfl
  increaseScore := fun _ _ _ _ _ _ => bind_map fun _ => bind_map fun _ => rfl

end Pool

/-! ## Repayments -/

variable {d : Deployment} {s s' : State} {l : Label}

/-- The state with the pause flags of the credit line and the pool set. -/
def State.pausedAs (line pool : Bool) (s : State) : State :=
  ⟨linePausedAs line s.line, worldPausedAs pool s.world⟩

/-- What a repayment returns, with the flags of the state it leaves set. -/
def repaidAs (line pool : Bool) (r : Int × State) : Int × State :=
  (r.1, State.pausedAs line pool r.2)

theorem repayLoan_pausedAs (line pool : Bool) (env : Env) (borrower : Address) (loanId : Nat)
    (amount : Int) (s : State) :
    repayLoan (clients d) env borrower loanId amount (State.pausedAs line pool s) =
      (repayLoan (clients d) env borrower loanId amount s).map (repaidAs line pool) :=
  settle_blind clients_blind

theorem repayInstallment_pausedAs (line pool : Bool) (env : Env) (borrower : Address)
    (loanId index : Nat) (amount : Int) (s : State) :
    repayInstallment (clients d) env borrower loanId index amount (State.pausedAs line pool s) =
      (repayInstallment (clients d) env borrower loanId index amount s).map (repaidAs line pool) :=
  settle_blind clients_blind

/-! ## Everything else -/

/-- The calls a pause lets through. -/
def Action.Collects : Action → Prop
  | .line (.repayLoan ..) => True
  | .line (.repayInstallment ..) => True
  | .line (.applyLateFees _) => True
  | _ => False

/-- The token moves to `a` without a contract having a part in it. -/
def Action.Pays (a : Address) : Action → Prop
  | .transfer _ target _ => target = a
  | .mint target _ => target = a
  | _ => False

instance (action : Action) : Decidable action.Collects := by
  unfold Action.Collects
  split <;> infer_instance

instance (a : Address) (action : Action) : Decidable (action.Pays a) := by
  unfold Action.Pays
  split <;> infer_instance

theorem requireNotPaused_ok {p : Storage} {u : Unit} :
    requireNotPaused p = .ok u ↔ p.paused = false := by simp [requireNotPaused]

/-- While the credit line is paused, the calls it still takes from others than
payers are the passive ones. -/
theorem paused_passive {env : Env} {call : CreditLine.Call} (hp : s.line.paused = true)
    (hc : ¬(Action.line call).Collects) (h : exec (clients d) env call s = .ok s') :
    call.Passive := by
  cases call with
  | createLoan r =>
    obtain ⟨_, h, -⟩ := map_ok.mp h
    simp [createLoan, bind_ok, requireNotPaused_ok, hp] at h
  | requestLoan r =>
    obtain ⟨_, h, -⟩ := map_ok.mp h
    simp [requestLoan, bind_ok, requireNotPaused_ok, hp] at h
  | approveLoan id =>
    obtain ⟨_, h, -⟩ := map_ok.mp h
    simp [approveLoan, bind_ok, requireNotPaused_ok, hp] at h
  | cancelLoan caller id => simp [exec, cancelLoan, bind_ok, requireNotPaused_ok, hp] at h
  | markDefaulted id => simp [exec, markDefaulted, bind_ok, requireNotPaused_ok, hp] at h
  | repayLoan => exact hc trivial
  | repayInstallment => exact hc trivial
  | applyLateFees => exact hc trivial
  | _ => trivial

/-- A step outside the credit line moves its balance only by paying it. -/
theorem outside_balance {env : Env} {w w' : World} {action : Action} (hw : w.Sound d)
    (henv : env.External d) (h : Outside d env w action w') (hpays : ¬action.Pays d.creditLine) :
    w'.token.balance d.creditLine = w.token.balance d.creditLine := by
  cases h with
  | pool hq =>
    obtain ⟨provided, hf⟩ := pool_funds hw henv hq
    exact congrArg Funds.escrow hf
  | @transfer source target amount hauth h0 hle =>
    have hsource := (outsider_ne (henv.outsider hauth)).1
    have htarget : target ≠ d.creditLine := hpays
    simp only [Token.move_balance, if_neg hsource.symm, if_neg htarget.symm, Int.sub_zero,
      Int.add_zero]
  | @mint target amount _ ht =>
    have htarget : target ≠ d.creditLine := hpays
    obtain ⟨-, rfl⟩ := Token.mint_ok.mp ht
    simp only [Function.update_of_ne htarget.symm]
  | reputation => rfl
  | vendors => rfl
  | parameters => rfl

theorem paused_step (hi : Invariant d s) (h : Step d s l s') (hp : s.line.paused = true)
    (hc : ¬l.action.Collects) :
    s'.line.loans = s.line.loans ∧ s'.line.userActiveDebt = s.line.userActiveDebt ∧
      (¬l.action.Pays d.creditLine →
        s'.world.token.balance d.creditLine = s.world.token.balance d.creditLine) := by
  rcases h.inside_or_outside with ⟨call, hcall, hexec⟩ | ⟨hline, hout⟩
  · rw [hcall] at hc
    obtain ⟨hworld, hkeeps⟩ := exec_keeps (paused_passive hp hc hexec) hexec
    refine ⟨hkeeps.loans, hkeeps.debt, fun _ => ?_⟩
    rw [hworld]
  · rw [hline]
    exact ⟨rfl, rfl, outside_balance hi.world h.external hout⟩

/-- On a reachable state, a repayment has the same result whatever the two pause
flags are, and leaves states that differ in the flags only. Over every run, no
step of a paused credit line other than a repayment or a fee accrual changes a
loan or a debt, and its token balance changes only by what is sent to it from
outside. -/
theorem pause_spares_repayments {s₀ : State} {tr : List (State × Label)} (h0 : Deployed s₀)
    (h : Run (Step d) s₀ tr s) :
    (∀ (line pool : Bool) (env : Env) (borrower : Address) (loanId : Nat) (amount : Int),
      repayLoan (clients d) env borrower loanId amount (s.pausedAs line pool) =
          (repayLoan (clients d) env borrower loanId amount s).map (repaidAs line pool) ∧
        ∀ index : Nat,
          repayInstallment (clients d) env borrower loanId index amount (s.pausedAs line pool) =
            (repayInstallment (clients d) env borrower loanId index amount s).map
              (repaidAs line pool)) ∧
    ∀ x ∈ outcomes tr s, x.1.line.paused = true → ¬x.2.1.action.Collects →
      x.2.2.line.loans = x.1.line.loans ∧ x.2.2.line.userActiveDebt = x.1.line.userActiveDebt ∧
      (¬x.2.1.action.Pays d.creditLine →
        x.2.2.world.token.balance d.creditLine = x.1.world.token.balance d.creditLine) := by
  constructor
  · intro line pool env borrower loanId amount
    exact ⟨repayLoan_pausedAs line pool env borrower loanId amount s, fun index =>
      repayInstallment_pausedAs line pool env borrower loanId index amount s⟩
  · have hiff := h.outcomes_iff_steps (C := fun _ _ => True) h0
      (Q := fun t l t' => t.line.paused = true → ¬l.action.Collects →
        t'.line.loans = t.line.loans ∧ t'.line.userActiveDebt = t.line.userActiveDebt ∧
        (¬l.action.Pays d.creditLine →
          t'.world.token.balance d.creditLine = t.world.token.balance d.creditLine))
      fun t l t' hreach hstep => iff_true_intro (paused_step (invariant_of_reachable hreach) hstep)
    exact hiff.mpr fun _ _ => trivial

/-- Both contracts are paused over a loan of borrower `21`. -/
def pausedLabels : List Label :=
  configure ++ [openLoan 21, .by 10 150 (.line (.pause 10)), .by 10 150 (.pool (.pause 10))]

/-- A payment of `300` of the `1070` owed leaves `770`, as it would unpaused. -/
theorem pause_spares_repayments_sample : ∃ s : State,
    s.line.paused = true ∧ s.world.pool.paused = true ∧
    (repayLoan (clients .sample) (Env.signedBy [21] 200) 21 1 300 s).toOption.map Prod.fst =
      some 770 ∧
    repayLoan (clients .sample) (Env.signedBy [21] 200) 21 1 300 (s.pausedAs false false) =
      (repayLoan (clients .sample) (Env.signedBy [21] 200) 21 1 300 s).map
        (repaidAs false false) := by
  have hrun : (replay (take .sample) sampleStart pausedLabels).toOption.map (fun r =>
      (r.2.line.paused, r.2.world.pool.paused, (repayLoan (clients .sample)
        (Env.signedBy [21] 200) 21 1 300 r.2).toOption.map Prod.fst)) =
      some (true, true, some 770) := by decide +kernel
  obtain ⟨tr, s, hr, hobs⟩ := replay_observed hrun
  simp only [Prod.mk.injEq] at hobs
  obtain ⟨hline, hpool, hpaid⟩ := hobs
  have hrun : Run (Step .sample) sampleStart tr s := run_of_replay (by decide) hr
  have hsame := (pause_spares_repayments sampleStart_deployed hrun).1 false false
    (Env.signedBy [21] 200) 21 1 300
  exact ⟨s, hline, hpool, hpaid, hsame.1⟩

end StepFi.Protocol

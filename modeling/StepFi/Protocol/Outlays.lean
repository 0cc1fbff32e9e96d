import StepFi.Protocol.Payments
import StepFi.Protocol.Flows

/-!
# What a call pays out of the pool

Each call takes a known list of transfers out of the pool: the principal of the
loan it makes active, the worth of the shares it burns, or the two fees on the
interest it is paid (`flow_out`, `pool_out`). Every other call takes none.
-/

namespace StepFi.Protocol

open Lib CreditLine

variable {d : Deployment} {env : Env} {p : Storage} {loan : Loan} {w w' w₁ : World}
variable {e : Event} {b : Book} {t t' t'' : Token} {a : Address} {xs ys : List Transfer}

/-! ## Ledgers that grow by transfers out of an account -/

/-- The transfers by which the ledger `t'` goes on after `t` take `xs` out of `a`. -/
def TakesOut (a : Address) (xs : List Transfer) (t t' : Token) : Prop :=
  t'.outflows a = t.outflows a ++ xs

namespace TakesOut

theorem rfl : TakesOut a [] t t := (List.append_nil _).symm

theorem of_log (h : t'.log = t.log) : TakesOut a [] t t' := by
  rw [TakesOut, Token.outflows, h, List.append_nil]
  exact Eq.refl _

theorem of_eq (h : t' = t) : TakesOut a [] t t' := h ▸ TakesOut.rfl

theorem trans (h : TakesOut a xs t t') (h' : TakesOut a ys t' t'') :
    TakesOut a (xs ++ ys) t t'' := by
  unfold TakesOut at *
  rw [h', h, List.append_assoc]

/-- A transfer out of another account. -/
theorem other {source target : Address} {amount : Int} (h : source ≠ a) :
    TakesOut a [] t (t.move source target amount) := by
  rw [TakesOut, Token.outflows_move, if_neg h]

theorem one {target : Address} {amount : Int} :
    TakesOut a [⟨a, target, amount⟩] t (t.move a target amount) := by
  rw [TakesOut, Token.outflows_move, if_pos (Eq.refl a)]

end TakesOut

/-! ## The lists -/

/-- The vendor gets what the guarantee does not cover. -/
def principalOut (d : Deployment) (loan : Loan) : List Transfer :=
  if 0 < loan.totalAmount - loan.guaranteeAmount then
    [⟨d.pool, loan.vendor, loan.totalAmount - loan.guaranteeAmount⟩]
  else []

/-- A fee goes out when it is positive and has a recipient. -/
def feeOut (d : Deployment) (recipient : Option Address) (amount : Int) : List Transfer :=
  match recipient with
  | some r => if 0 < amount then [⟨d.pool, r, amount⟩] else []
  | none => []

/-- The fees on what a payment brings beside principal. -/
def feesOut (d : Deployment) (pool : LiquidityPool.Storage) (interest : Int) : List Transfer :=
  if 0 < interest then
    feeOut d pool.treasury (LiquidityPool.protocolShare interest)
      ++ feeOut d pool.merchantFund (LiquidityPool.merchantShare interest)
  else []

/-- What goes out of the pool with an entry made at `env`. -/
def Event.outlays (d : Deployment) (env : Env) (pool : LiquidityPool.Storage) :
    Event → List Transfer
  | .issue loan => if loan.status = .active then principalOut d loan else []
  | .activate loan _ => principalOut d loan
  | .repay loan _ amount _ =>
    feesOut d pool (allocate (loan.accrued env.timestamp) amount).interestFeeLate
  | _ => []

/-! ## The calls of the credit line -/

theorem transfer_other {env' : Env} {token source target : Address} {amount : Int}
    (hne : source ≠ a) (h : (clients d).transfer env' token source target amount w = .ok w') :
    TakesOut a [] w.token w'.token := by
  obtain ⟨-, -, -, -, rfl⟩ := transfer_ok.mp h
  exact .other hne

theorem feePaid_out {recipient : Option Address} {amount : Int} :
    TakesOut d.pool (feeOut d recipient amount) t (LiquidityPool.feePaid d recipient amount t) := by
  cases recipient with
  | none => exact .rfl
  | some r =>
    by_cases hpos : 0 < amount
    · simp only [feeOut, LiquidityPool.feePaid, if_pos hpos]
      exact .one
    · simp only [feeOut, LiquidityPool.feePaid, if_neg hpos]
      exact .rfl

theorem receiveRepayment_out {env' : Env} {pool : Address} {principal interest : Int}
    (hsame : w₁.pool = w.pool)
    (h : (clients d).receiveRepayment env' pool d.creditLine principal interest w₁ = .ok w') :
    TakesOut d.pool (feesOut d w.pool interest) w₁.token w'.token := by
  obtain ⟨-, s, hs, rfl⟩ := callPool_ok.mp h
  obtain ⟨-, -, -, -, -, -, rfl⟩ := LiquidityPool.receiveRepayment_spec hs
  have hin : TakesOut d.pool [] w₁.token
      (w₁.token.move d.creditLine d.pool (principal + interest)) := .other d.creditLine_ne_pool
  by_cases hpos : 0 < interest
  · simp only [LiquidityPool.repaidLedger, feesOut, if_pos hpos, hsame]
    exact hin.trans (feePaid_out.trans feePaid_out)
  · simp only [LiquidityPool.repaidLedger, feesOut, if_neg hpos]
    exact hin

theorem lend_out (h : LendFlow (clients d) env p loan w w') :
    TakesOut d.pool (principalOut d loan) w.token w'.token := by
  obtain ⟨pool, -, h⟩ := h
  by_cases hpos : 0 < loan.totalAmount - loan.guaranteeAmount
  · rw [if_pos hpos] at h
    obtain ⟨-, s, hs, rfl⟩ := callPool_ok.mp h
    obtain ⟨-, -, -, -, -, _, _, _, rfl⟩ := LiquidityPool.fundLoan_spec hs
    rw [principalOut, if_pos hpos]
    exact .one
  · rw [if_neg hpos] at h
    rw [principalOut, if_neg hpos]
    exact .of_eq (congrArg World.token h)

theorem repay_out {amount : Int} {schedule : List RepaymentInstallment}
    (hborrower : loan.borrower ≠ d.pool)
    (h : RepayFlow (clients d) env p loan amount schedule w w') :
    TakesOut d.pool
      (feesOut d w.pool (allocate (loan.accrued env.timestamp) amount).interestFeeLate)
      w.token w'.token := by
  obtain ⟨token, pool, w₁, w₂, -, -, h₁, h₂, h₃⟩ := h
  have hsame : w₁.pool = w.pool := by
    obtain ⟨-, -, -, -, rfl⟩ := transfer_ok.mp h₁
    rfl
  have hpaid := (transfer_other hborrower h₁).trans (receiveRepayment_out hsame h₂)
  split at h₃
  · -- The guarantee goes back out of the credit line.
    obtain ⟨w₃, h₃, h₄⟩ := h₃
    rw [reward_token h₄]
    have hback := hpaid.trans (transfer_other d.creditLine_ne_pool h₃)
    rwa [List.append_nil] at hback
  · rw [h₃]
    exact hpaid

theorem forfeit_out (h : ForfeitFlow (clients d) env p loan w w') :
    TakesOut d.pool [] w.token w'.token := by
  obtain ⟨token, pool, w₁, w₂, -, -, h₁, h₂, h₃⟩ := h
  have hgiven : TakesOut d.pool [] w.token w₁.token := by
    obtain ⟨-, s, hs, rfl⟩ := callPool_ok.mp h₁
    obtain ⟨-, -, -, -, -, -, -, -, -, -, rfl⟩ := LiquidityPool.receiveGuarantee_ok.mp hs
    exact .other d.creditLine_ne_pool
  have hsame : w₂.token = w₁.token := by
    split at h₂
    · obtain ⟨-, s, hs, rfl⟩ := callPool_ok.mp h₂
      obtain ⟨-, -, -, -, -, -, -, rfl⟩ := LiquidityPool.absorbLoss_ok.mp hs
      rfl
    · rw [h₂]
  rw [penalize_token h₃, hsame]
  exact hgiven

/-- An entry takes its own list out of the pool and no more. -/
theorem flow_out (hv : e.Valid b) (henv : env.External d)
    (ho : ∀ id loan, b.loan id = some loan → loan.borrower ∉ d.contracts)
    (h : Flow (clients d) env p w w' e) :
    TakesOut d.pool (Event.outlays d env w.pool e) w.token w'.token := by
  have hpool : ∀ {a : Address}, a ∉ d.contracts → a ≠ d.pool := by
    rintro a ha rfl
    simp [Deployment.contracts] at ha
  cases hv with
  | idle => exact .of_eq (congrArg World.token h)
  | accrue => exact .of_eq (congrArg World.token h)
  | @issue loan hid =>
    obtain ⟨token, w₁, -, h₁, h₂⟩ := h.payments
    have hin := transfer_other (hpool (henv.outsider h.auth)) h₁
    by_cases hactive : loan.status = .active
    · rw [if_pos hactive] at h₂
      simp only [Event.outlays, if_pos hactive]
      exact hin.trans (lend_out h₂)
    · rw [if_neg hactive] at h₂
      simp only [Event.outlays, if_neg hactive]
      rwa [h₂]
  | activate => exact lend_out h.lend
  | cancel =>
    obtain ⟨token, -, h⟩ := h
    exact transfer_other d.creditLine_ne_pool h
  | repay hold => exact repay_out (hpool (ho _ _ hold)) h.2
  | forfeit => exact forfeit_out h

/-! ## Calls on the pool -/

/-- What the shares are worth at the price of the moment. -/
def worth (a : LiquidityPool.Accounts) (shares : Int) : Int :=
  shares * a.quote a.shares / LiquidityPool.sharePricePrecision

/-- What a call from outside takes out of the pool: the worth of the shares it
burns. -/
inductive Burns (d : Deployment) (env : Env) (pool pool' : LiquidityPool.Storage) :
    List Transfer → Prop
  | nothing : pool.totalShares ≤ pool'.totalShares → Burns d env pool pool' []
  | shares {provider : Address} {shares : Int} : env.auths provider = true → 0 < shares →
      pool'.lpShares provider = pool.lpShares provider - shares →
      pool'.totalShares = pool.totalShares - shares →
      Burns d env pool pool' [⟨d.pool, provider, worth pool.accounts shares⟩]

theorem pool_out {active : Address → Option Bool} {call : LiquidityPool.Call}
    {s : LiquidityPool.State} (hw : w.Sound d) (henv : env.External d)
    (h : LiquidityPool.exec d active env call ⟨w.pool, w.token⟩ = .ok s) :
    ∃ xs, TakesOut d.pool xs w.token s.token ∧ Burns d env w.pool s.pool xs := by
  have hconfig := hw.pool.config
  cases call with
  | deposit provider amount =>
    obtain ⟨⟨k, s₁⟩, h₁, rfl⟩ := map_ok.mp h
    obtain ⟨price, -, hauth, -, hk, -, -, -, rfl⟩ := LiquidityPool.deposit_spec h₁
    have hne : provider ≠ d.pool := by
      rintro rfl
      exact henv.outsider hauth (by simp [Deployment.contracts])
    refine ⟨[], .other hne, .nothing ?_⟩
    have hseeded : w.pool.totalShares ≤ (LiquidityPool.seedDeadShares w.pool).totalShares := by
      rw [LiquidityPool.seedDeadShares_eq]
      dsimp only [LiquidityPool.deadSharesAmount]
      split <;> omega
    dsimp only
    omega
  | withdraw provider shares =>
    obtain ⟨⟨r, s₁⟩, h₁, rfl⟩ := map_ok.mp h
    obtain ⟨price, -, hauth, hpos, -, -, -, -, -, rfl⟩ := LiquidityPool.withdraw_spec h₁
    have hworth : r = worth w.pool.accounts shares :=
      (LiquidityPool.withdraw_accounts hw.pool.accounts h₁).2.2.1
    rw [hworth]
    exact ⟨_, .one, .shares hauth hpos (Function.update_self ..) rfl⟩
  | fundLoan =>
    obtain ⟨hauth, hcl, -⟩ := LiquidityPool.fundLoan_spec h
    exact (not_creditline hconfig henv hauth hcl).elim
  | receiveRepayment =>
    obtain ⟨hauth, hcl, -⟩ := LiquidityPool.receiveRepayment_spec h
    exact (not_creditline hconfig henv hauth hcl).elim
  | receiveGuarantee =>
    obtain ⟨hauth, -, hcl, -⟩ := LiquidityPool.receiveGuarantee_ok.mp h
    exact (not_creditline hconfig henv hauth hcl).elim
  | absorbLoss =>
    obtain ⟨-, -, -, -, -, -, -, rfl⟩ := LiquidityPool.absorbLoss_ok.mp h
    exact ⟨[], .rfl, .nothing (Int.le_refl _)⟩
  | distributeInterest =>
    obtain ⟨hauth, hcl, -⟩ := LiquidityPool.distributeInterest_spec h
    exact (not_creditline hconfig henv hauth hcl).elim
  | accumulateInterest =>
    obtain ⟨hauth, hcl, -⟩ := LiquidityPool.distributeInterest_spec h
    exact (not_creditline hconfig henv hauth hcl).elim
  | _ =>
    obtain ⟨htoken, hkept⟩ := LiquidityPool.exec_setter h trivial
    have hshares := congrArg LiquidityPool.Accounts.shares hkept.accounts
    exact ⟨[], .of_eq htoken, .nothing (Int.le_of_eq hshares.symm)⟩

end StepFi.Protocol

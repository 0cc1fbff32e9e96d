import StepFi.Protocol.Invariant

/-!
# Whose tokens move

Every call moves tokens by a list of transfers, and each is authorised by its payer
or made by the credit line or the pool out of its own balance (`Disbursement`).
-/

namespace StepFi.Token

/-- The ledger after the transfers, one after another. -/
def moves (t : Token) (xs : List Transfer) : Token :=
  xs.foldl (fun t x => t.move x.source x.target x.amount) t

theorem moves_append (t : Token) (xs ys : List Transfer) :
    t.moves (xs ++ ys) = (t.moves xs).moves ys := List.foldl_append

theorem moves_log (t : Token) (xs : List Transfer) : (t.moves xs).log = t.log ++ xs := by
  induction xs generalizing t with
  | nil => exact (List.append_nil _).symm
  | cons x xs ih =>
    rw [moves, List.foldl_cons, ← moves, ih, move_log, List.append_assoc]
    rfl

/-- An account out of which nothing goes loses nothing. -/
theorem le_moves {t : Token} {xs : List Transfer} {a : Address}
    (h : ∀ x ∈ xs, 0 ≤ x.amount ∧ x.source ≠ a) : t.balance a ≤ (t.moves xs).balance a := by
  induction xs generalizing t with
  | nil => exact Int.le_refl _
  | cons x xs ih =>
    obtain ⟨⟨h0, hne⟩, hrest⟩ := List.forall_mem_cons.mp h
    refine Int.le_trans ?_ (ih (t := t.move x.source x.target x.amount) hrest)
    rw [move_balance, if_neg (fun heq => hne heq.symm)]
    split <;> omega

end StepFi.Token

namespace StepFi.Protocol

open Lib CreditLine

variable {d : Deployment} {env : Env} {p q : Storage} {loan : Loan} {w w' : World}
variable {e : Event} {b : Book} {t t' t'' : Token} {Q : Transfer → Prop}

/-! ## Ledgers that grow by transfers -/

/-- The ledger `t'` is `t` after transfers that are all `Q`. -/
def Pays (Q : Transfer → Prop) (t t' : Token) : Prop :=
  ∃ xs, t' = t.moves xs ∧ ∀ x ∈ xs, 0 ≤ x.amount ∧ Q x

namespace Pays

theorem rfl : Pays Q t t := ⟨[], Eq.refl _, by simp⟩

theorem of_eq (h : t' = t) : Pays Q t t' := h ▸ Pays.rfl

theorem one {source target : Address} {amount : Int} (h0 : 0 ≤ amount)
    (h : Q ⟨source, target, amount⟩) : Pays Q t (t.move source target amount) :=
  ⟨[⟨source, target, amount⟩], Eq.refl _, by simpa using ⟨h0, h⟩⟩

theorem trans (h : Pays Q t t') (h' : Pays Q t' t'') : Pays Q t t'' := by
  obtain ⟨xs, rfl, hxs⟩ := h
  obtain ⟨ys, rfl, hys⟩ := h'
  exact ⟨xs ++ ys, (Token.moves_append t xs ys).symm, List.forall_mem_append.mpr ⟨hxs, hys⟩⟩

/-- An account that no transfer pays out of loses nothing. -/
theorem balance_le {a : Address} (h : Pays Q t t') (hne : ∀ x, Q x → x.source ≠ a) :
    t.balance a ≤ t'.balance a := by
  obtain ⟨xs, rfl, hxs⟩ := h
  exact Token.le_moves fun x hx => ⟨(hxs x hx).1, hne x (hxs x hx).2⟩

end Pays

/-! ## The reasons -/

/-- Why a call at `env` may make a transfer: the payer, no contract, authorised it, or
the credit line or the pool pays. -/
inductive Disbursement (d : Deployment) (env : Env) : Transfer → Prop
  | authorised {source target : Address} {amount : Int} : env.auths source = true →
      source ∉ d.contracts → Disbursement d env ⟨source, target, amount⟩
  | byCreditLine {target : Address} {amount : Int} :
      Disbursement d env ⟨d.creditLine, target, amount⟩
  | byPool {target : Address} {amount : Int} : Disbursement d env ⟨d.pool, target, amount⟩

/-- A share of the interest, paid when it is positive and has a recipient. -/
theorem feePaid_pays {recipient : Option Address} {amount : Int} :
    Pays (Disbursement d env) t (LiquidityPool.feePaid d recipient amount t) := by
  unfold LiquidityPool.feePaid
  split
  · split
    · rename_i r hpos
      exact .one (Int.le_of_lt hpos) .byPool
    · exact .rfl
  · exact .rfl

/-- A repayment that reaches the pool. -/
theorem repaid_pays {env' : Env} {pool : Address} {principal interest : Int}
    (h : (clients d).receiveRepayment env' pool d.creditLine principal interest w = .ok w') :
    Pays (Disbursement d env) w.token w'.token := by
  obtain ⟨-, s, hs, rfl⟩ := callPool_ok.mp h
  obtain ⟨-, -, hq, hj, -, -, rfl⟩ := LiquidityPool.receiveRepayment_spec hs
  have hin : Pays (Disbursement d env) w.token
      (w.token.move d.creditLine d.pool (principal + interest)) := .one (by omega) .byCreditLine
  simp only [LiquidityPool.repaidLedger]
  split
  · exact (hin.trans feePaid_pays).trans feePaid_pays
  · exact hin

theorem validateVendor_ok {vendor : Address} {u : Unit}
    (h : validateVendor (clients d) p w vendor = .ok u) : w.vendors vendor = some true := by
  simp only [validateVendor, bind_ok, demand_ok, ensure_ok, clients] at h
  obtain ⟨registry, -, answer, hanswer, rfl⟩ := h
  split at hanswer
  · exact hanswer
  · cases hanswer

theorem lend_pays (h : LendFlow (clients d) env p loan w w') :
    Pays (Disbursement d env) w.token w'.token := by
  obtain ⟨pool, -, h⟩ := h
  split at h
  · rename_i hpos
    obtain ⟨-, s, hs, rfl⟩ := callPool_ok.mp h
    obtain ⟨-, -, -, -, -, _, _, _, rfl⟩ := LiquidityPool.fundLoan_spec hs
    exact .one (Int.le_of_lt hpos) .byPool
  · exact .of_eq (congrArg World.token h)

/-- The scores are no tokens. -/
theorem reward_token {borrower : Address}
    (h : rewardRepayment (clients d) env p borrower loan w = .ok w') : w'.token = w.token := by
  rcases rewardRepayment_ok.mp h with ⟨-, rfl⟩ | ⟨reputation, -, h⟩
  · rfl
  · obtain ⟨-, s, -, rfl⟩ := callReputation_ok.mp h
    rfl

theorem penalize_token (h : penalizeDefault (clients d) env p loan w = .ok w') :
    w'.token = w.token := by
  rcases penalizeDefault_ok.mp h with ⟨-, rfl⟩ | ⟨reputation, -, h⟩
  · rfl
  · obtain ⟨-, s, -, rfl⟩ := callReputation_ok.mp h
    rfl

theorem transfer_pays {token source target : Address} {amount : Int}
    (hQ : Q ⟨source, target, amount⟩)
    (h : (clients d).transfer env token source target amount w = .ok w') :
    Pays Q w.token w'.token := by
  obtain ⟨-, -, h0, -, rfl⟩ := transfer_ok.mp h
  exact .one h0 hQ

theorem repay_pays {amount : Int} {schedule : List RepaymentInstallment}
    (hauth : env.auths loan.borrower = true) (ho : loan.borrower ∉ d.contracts)
    (h : RepayFlow (clients d) env p loan amount schedule w w') :
    Pays (Disbursement d env) w.token w'.token := by
  obtain ⟨token, pool, w₁, w₂, -, -, h₁, h₂, h₃⟩ := h
  have hin : Pays (Disbursement d env) w.token w₁.token := transfer_pays (.authorised hauth ho) h₁
  have hpaid : Pays (Disbursement d env) w.token w₂.token := hin.trans (repaid_pays h₂)
  split at h₃
  · obtain ⟨w₃, h₃, h₄⟩ := h₃
    rw [reward_token h₄]
    exact hpaid.trans (transfer_pays .byCreditLine h₃)
  · rw [h₃]
    exact hpaid

theorem forfeit_pays (h : ForfeitFlow (clients d) env p loan w w') :
    Pays (Disbursement d env) w.token w'.token := by
  obtain ⟨token, pool, w₁, w₂, -, -, h₁, h₂, h₃⟩ := h
  have hgiven : Pays (Disbursement d env) w.token w₁.token := by
    obtain ⟨-, s, hs, rfl⟩ := callPool_ok.mp h₁
    obtain ⟨-, -, -, hpos, -, -, -, -, -, -, rfl⟩ := LiquidityPool.receiveGuarantee_ok.mp hs
    exact .one (Int.le_of_lt hpos) .byCreditLine
  have hsame : w₂.token = w₁.token := by
    split at h₂
    · obtain ⟨-, s, hs, rfl⟩ := callPool_ok.mp h₂
      obtain ⟨-, -, -, -, -, -, -, rfl⟩ := LiquidityPool.absorbLoss_ok.mp hs
      rfl
    · rw [h₂]
  rw [penalize_token h₃, hsame]
  exact hgiven

/-- The calls that go with an entry make payments and move no other tokens. -/
theorem flow_pays (hv : e.Valid b) (henv : env.External d)
    (ho : ∀ id loan, b.loan id = some loan → loan.borrower ∉ d.contracts)
    (h : Flow (clients d) env p w w' e) : Pays (Disbursement d env) w.token w'.token := by
  cases hv with
  | idle => exact .of_eq (congrArg World.token h)
  | accrue => exact .of_eq (congrArg World.token h)
  | @issue loan hid =>
    obtain ⟨token, w₁, -, h₁, h₂⟩ := h.payments
    have hin : Pays (Disbursement d env) w.token w₁.token :=
      transfer_pays (.authorised h.auth (henv.outsider h.auth)) h₁
    split at h₂
    · exact hin.trans (lend_pays h₂)
    · rw [h₂]
      exact hin
  | activate => exact lend_pays h.lend
  | cancel =>
    obtain ⟨token, -, h⟩ := h
    exact transfer_pays .byCreditLine h
  | repay hold => exact repay_pays h.1 (ho _ _ hold) h.2
  | forfeit => exact forfeit_pays h

/-! ## Calls on the pool -/

/-- Nobody outside can call the pool as its credit line. -/
theorem not_creditline {pool : LiquidityPool.Storage} {creditline : Address}
    (hs : pool.config.Sound d) (henv : env.External d) (hauth : env.auths creditline = true)
    (hcl : pool.creditline = some creditline) : False := by
  obtain rfl := hs.creditline creditline hcl
  exact henv.outsider hauth d.creditLine_mem

/-- A call from outside on the pool pays a provider in or out. -/
theorem pool_pays {active : Address → Option Bool} {call : LiquidityPool.Call}
    {s : LiquidityPool.State} (hw : w.Sound d) (henv : env.External d)
    (h : LiquidityPool.exec d active env call ⟨w.pool, w.token⟩ = .ok s) :
    Pays (Disbursement d env) w.token s.token := by
  have hconfig := hw.pool.config
  cases call with
  | deposit provider amount =>
    obtain ⟨⟨k, s₁⟩, h₁, rfl⟩ := map_ok.mp h
    obtain ⟨price, -, hauth, hmin, -, -, -, -, rfl⟩ := LiquidityPool.deposit_spec h₁
    have h0 : 0 ≤ amount := Int.le_trans (by decide) hmin
    exact .one h0 (.authorised hauth (henv.outsider hauth))
  | withdraw provider shares =>
    obtain ⟨⟨r, s₁⟩, h₁, rfl⟩ := map_ok.mp h
    obtain ⟨price, -, -, -, -, -, -, h0, -, rfl⟩ := LiquidityPool.withdraw_spec h₁
    exact .one h0 .byPool
  | fundLoan creditline merchant amount =>
    obtain ⟨hauth, hcl, -⟩ := LiquidityPool.fundLoan_spec h
    exact (not_creditline hconfig henv hauth hcl).elim
  | receiveRepayment creditline principal interest =>
    obtain ⟨hauth, hcl, -⟩ := LiquidityPool.receiveRepayment_spec h
    exact (not_creditline hconfig henv hauth hcl).elim
  | receiveGuarantee creditline amount =>
    obtain ⟨hauth, -, hcl, -⟩ := LiquidityPool.receiveGuarantee_ok.mp h
    exact (not_creditline hconfig henv hauth hcl).elim
  | absorbLoss creditline shortfall =>
    obtain ⟨-, -, -, -, -, -, -, rfl⟩ := LiquidityPool.absorbLoss_ok.mp h
    exact .rfl
  | distributeInterest creditline interest =>
    obtain ⟨hauth, hcl, -⟩ := LiquidityPool.distributeInterest_spec h
    exact (not_creditline hconfig henv hauth hcl).elim
  | accumulateInterest creditline interest =>
    obtain ⟨hauth, hcl, -⟩ := LiquidityPool.distributeInterest_spec h
    exact (not_creditline hconfig henv hauth hcl).elim
  | _ => exact .of_eq (LiquidityPool.exec_setter h trivial).1

end StepFi.Protocol

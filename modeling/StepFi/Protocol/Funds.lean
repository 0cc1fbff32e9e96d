import StepFi.Protocol.Invariant

/-!
# The funds of the protocol

Four quantities carry the accounting between the two contracts: the credit
line's balance (the escrowed guarantees), the pool's balance, and the pool's two
counters. `Funds.after` says what an entry in the book does to them and
`Step.turn` that every step of the protocol does that, apart from tokens that
come in from elsewhere.
-/

namespace StepFi.Protocol

open Lib CreditLine
open LiquidityPool (lpShare protocolShare merchantShare feePaid)

@[ext] structure Funds where
  /-- The credit line's token balance. -/
  escrow : Int
  /-- The pool's token balance. -/
  cash : Int
  total : Int
  locked : Int

namespace Funds

def hold (f : Funds) (guarantee : Int) : Funds := { f with escrow := f.escrow + guarantee }

def release (f : Funds) (guarantee : Int) : Funds := { f with escrow := f.escrow - guarantee }

def lend (f : Funds) (amount : Int) : Funds :=
  { f with cash := f.cash - amount, locked := f.locked + amount }

/-- A payment reaches the pool and the fees leave it. -/
def repay (f : Funds) (principal interest : Int) : Funds :=
  { f with
    cash := f.cash + principal + lpShare interest
    total := f.total + lpShare interest
    locked := max 0 (f.locked - principal) }

def recover (f : Funds) (guarantee : Int) : Funds where
  escrow := f.escrow - guarantee
  cash := f.cash + guarantee
  total := f.total + min guarantee f.locked
  locked := f.locked - min guarantee f.locked

def absorb (f : Funds) (shortfall : Int) : Funds :=
  { f with total := f.total - min shortfall f.total, locked := f.locked - min shortfall f.locked }

/-- Liquidity provided, or withdrawn when negative. -/
def provide (f : Funds) (amount : Int) : Funds :=
  { f with cash := f.cash + amount, total := f.total + amount }

/-- Tokens that reach the two accounts from elsewhere. -/
def stray (f : Funds) (escrow cash : Int) : Funds :=
  { f with escrow := f.escrow + escrow, cash := f.cash + cash }

/-- What an entry does to the funds. -/
def after (f : Funds) : Event → Funds
  | .idle => f
  | .issue loan =>
    if loan.status = .active then
      (f.hold loan.guaranteeAmount).lend (loan.totalAmount - loan.guaranteeAmount)
    else f.hold loan.guaranteeAmount
  | .activate loan _ => f.lend (loan.totalAmount - loan.guaranteeAmount)
  | .cancel loan => f.release loan.guaranteeAmount
  | .accrue _ _ => f
  | .repay loan now amount _ =>
    let accrued := loan.accrued now
    let a := allocate accrued amount
    let paid := f.repay a.principalPaid a.interestFeeLate
    if accrued.remainingBalance = amount then paid.release loan.guaranteeAmount else paid
  | .forfeit loan =>
    (f.recover loan.guaranteeAmount).absorb
      (max 0 (loan.principalOutstanding - loan.guaranteeAmount))

end Funds

def World.funds (d : Deployment) (w : World) : Funds where
  escrow := w.token.balance d.creditLine
  cash := w.token.balance d.pool
  total := w.pool.totalLiquidity
  locked := w.pool.lockedLiquidity

variable {d : Deployment} {env : Env} {p : Storage} {loan : Loan} {w w' : World} {s s' : State}
variable {l : Label} {e : Event}

/-- What an account receives of a payment to `target`. -/
def received (a target : Address) (amount : Int) : Int := if target = a then amount else 0

theorem received_nonneg {a target : Address} {amount : Int} (h : 0 ≤ amount) :
    0 ≤ received a target amount := by
  unfold received
  split <;> omega

theorem received_of_ne {a target : Address} {amount : Int} (h : target ≠ a) :
    received a target amount = 0 := if_neg h

/-! ## The flows -/

theorem outsider_ne {a : Address} (h : a ∉ d.contracts) : a ≠ d.creditLine ∧ a ≠ d.pool := by
  simp only [Deployment.contracts, List.mem_cons, not_or] at h
  exact ⟨h.1, h.2.1⟩

theorem funds_move (source target : Address) (amount : Int) :
    World.funds d { w with token := w.token.move source target amount } =
      { w.funds d with
        escrow := (w.funds d).escrow - received d.creditLine source amount
          + received d.creditLine target amount
        cash := (w.funds d).cash - received d.pool source amount
          + received d.pool target amount } := by
  simp only [World.funds, Token.move_balance, received, eq_comm]

theorem funds_mint (target : Address) (amount : Int) :
    World.funds d { w with token := { w.token with
        balance := Function.update w.token.balance target (w.token.balance target + amount) } } =
      (w.funds d).stray (received d.creditLine target amount) (received d.pool target amount) := by
  have hbalance : ∀ a, Function.update w.token.balance target (w.token.balance target + amount) a
      = w.token.balance a + received a target amount := by
    intro a
    by_cases ha : target = a
    · subst ha
      simp [received]
    · simp [received, ha, Function.update_of_ne (Ne.symm ha)]
  simp only [World.funds, hbalance, Funds.stray]

theorem transfer_funds {token source target : Address} {amount : Int}
    (h : (clients d).transfer env token source target amount w = .ok w') :
    w'.funds d = { w.funds d with
      escrow := (w.funds d).escrow - received d.creditLine source amount
        + received d.creditLine target amount
      cash := (w.funds d).cash - received d.pool source amount
        + received d.pool target amount } := by
  obtain ⟨-, -, -, -, rfl⟩ := transfer_ok.mp h
  exact funds_move source target amount

/-- A guarantee paid in by a borrower from outside. -/
theorem hold_funds {token borrower : Address} {guarantee : Int} (ho : borrower ∉ d.contracts)
    (h : (clients d).transfer env token borrower d.creditLine guarantee w = .ok w') :
    w'.funds d = (w.funds d).hold guarantee := by
  obtain ⟨hline, hpool⟩ := outsider_ne ho
  have hne := d.creditLine_ne_pool
  rw [transfer_funds h]
  simp [received, hline, hpool, hne, Funds.hold]

/-- A guarantee paid back to a borrower from outside. -/
theorem release_funds {token borrower : Address} {guarantee : Int} (ho : borrower ∉ d.contracts)
    (h : (clients d).transfer env token d.creditLine borrower guarantee w = .ok w') :
    w'.funds d = (w.funds d).release guarantee := by
  obtain ⟨hline, hpool⟩ := outsider_ne ho
  have hne := d.creditLine_ne_pool
  rw [transfer_funds h]
  simp [received, hline, hpool, hne, Funds.release]

theorem lend_funds (hle : loan.guaranteeAmount ≤ loan.totalAmount)
    (h : LendFlow (clients d) env p loan w w') :
    let amount := loan.totalAmount - loan.guaranteeAmount
    w'.funds d = ((w.funds d).lend amount).stray (received d.creditLine loan.vendor amount)
      (received d.pool loan.vendor amount) := by
  obtain ⟨pool, -, h⟩ := h
  have hne := d.creditLine_ne_pool
  dsimp only
  split at h
  · obtain ⟨-, q, hq, rfl⟩ := callPool_ok.mp h
    obtain ⟨-, -, -, -, -, _, _, _, rfl⟩ := LiquidityPool.fundLoan_spec hq
    ext <;> simp only [World.funds, Token.move_balance, Funds.lend, Funds.stray, received, hne,
      if_false, if_true, eq_comm, Int.sub_zero]
  · have hzero : loan.totalAmount - loan.guaranteeAmount = 0 := by omega
    rw [h, hzero]
    ext <;> simp [World.funds, Funds.lend, Funds.stray, received]

/-- What an account receives of the fees on `interest`. -/
def fees (a : Address) (q : LiquidityPool.Storage) (interest : Int) : Int :=
  (if q.treasury = some a then protocolShare interest else 0)
    + if q.merchantFund = some a then merchantShare interest else 0

theorem fees_nonneg {a : Address} {q : LiquidityPool.Storage} {interest : Int} (h : 0 ≤ interest) :
    0 ≤ fees a q interest := by
  rcases Int.lt_or_eq_of_le h with hpos | rfl
  · obtain ⟨-, hp, hm⟩ := LiquidityPool.shares_nonneg hpos
    unfold fees
    split <;> split <;> omega
  · simp [fees, protocolShare, merchantShare, lpShare]

theorem fees_of_ne {a : Address} {q : LiquidityPool.Storage} {interest : Int}
    (ht : q.treasury ≠ some a) (hf : q.merchantFund ≠ some a) : fees a q interest = 0 := by
  simp [fees, ht, hf]

/-- The pool's side of a repayment. -/
theorem received_funds {pool : Address} {principal interest : Int} (hw : w.Sound d)
    (h : (clients d).receiveRepayment env pool d.creditLine principal interest w = .ok w') :
    w'.funds d = (((w.funds d).repay principal interest).release (principal + interest)).stray
      (fees d.creditLine w.pool interest) (fees d.pool w.pool interest) := by
  obtain ⟨-, q, hq, rfl⟩ := callPool_ok.mp h
  obtain ⟨-, hcl, -, hj, -, -, rfl⟩ := LiquidityPool.receiveRepayment_spec hq
  obtain ⟨treasury, fund, htreasury, hfund⟩ := hw.pool.config.recipients_some hcl
  have ht : w.pool.treasury = some treasury := htreasury
  have hf : w.pool.merchantFund = some fund := hfund
  have hne := d.creditLine_ne_pool
  have hsum := LiquidityPool.shares_sum interest
  rcases Int.lt_or_eq_of_le hj with hpos | rfl
  · obtain ⟨-, hp, hm⟩ := LiquidityPool.shares_nonneg hpos
    ext
    · simp only [World.funds, LiquidityPool.repaidLedger, hpos, if_true,
        LiquidityPool.feePaid_balance d _ _ hp, LiquidityPool.feePaid_balance d _ _ hm,
        Token.move_balance, hne, false_and, if_false, Funds.repay, Funds.release, Funds.stray, fees]
      omega
    · simp only [World.funds, LiquidityPool.repaidLedger, hpos, if_true, true_and,
        LiquidityPool.feePaid_balance d _ _ hp, LiquidityPool.feePaid_balance d _ _ hm,
        Token.move_balance, hne.symm, if_false, Funds.repay, Funds.release, Funds.stray, fees, ht,
        hf, Option.isSome_some]
      omega
    · simp only [World.funds, LiquidityPool.repaid, hpos, if_true, Funds.repay, Funds.release,
        Funds.stray]
    · rfl
  · ext <;> simp [World.funds, LiquidityPool.repaidLedger, LiquidityPool.repaid, Token.move_balance,
      Funds.repay, Funds.release, Funds.stray, fees, hne, hne.symm, lpShare, protocolShare,
      merchantShare]

theorem reward_funds {borrower : Address}
    (h : rewardRepayment (clients d) env p borrower loan w = .ok w') :
    w'.funds d = w.funds d ∧ w'.token = w.token := by
  rcases rewardRepayment_ok.mp h with ⟨-, rfl⟩ | ⟨reputation, -, h⟩
  · exact ⟨rfl, rfl⟩
  · obtain ⟨-, q, -, rfl⟩ := callReputation_ok.mp h
    exact ⟨rfl, rfl⟩

theorem penalize_funds (h : penalizeDefault (clients d) env p loan w = .ok w') :
    w'.funds d = w.funds d ∧ w'.token = w.token := by
  rcases penalizeDefault_ok.mp h with ⟨-, rfl⟩ | ⟨reputation, -, h⟩
  · exact ⟨rfl, rfl⟩
  · obtain ⟨-, q, -, rfl⟩ := callReputation_ok.mp h
    exact ⟨rfl, rfl⟩

theorem repay_funds {now : Nat} {amount : Int} {schedule : List RepaymentInstallment}
    (hw : w.Sound d) (ho : loan.borrower ∉ d.contracts) (hs : (loan.accrued env.timestamp).Sound)
    (h0 : 0 ≤ amount) (hle : amount ≤ (loan.accrued env.timestamp).remainingBalance)
    (hnow : now = env.timestamp) (h : RepayFlow (clients d) env p loan amount schedule w w') :
    ∃ interest, 0 ≤ interest ∧
      w'.funds d = ((w.funds d).after (.repay loan now amount schedule)).stray
        (fees d.creditLine w.pool interest) (fees d.pool w.pool interest) := by
  subst hnow
  obtain ⟨token, pool, w₁, w₂, -, -, h₁, h₂, h₃⟩ := h
  obtain ⟨hj, hsum⟩ := (allocate_spec hs h0 hle).interestFeeLate
  simp only [Funds.after]
  generalize allocate (loan.accrued env.timestamp) amount = a at h₂ hj hsum ⊢
  have hpool : w₁.pool = w.pool := by
    obtain ⟨-, -, -, -, rfl⟩ := transfer_ok.mp h₁
    rfl
  -- The payment comes in and goes on to the pool: only the pool's side remains.
  have hfunds : w₂.funds d = ((w.funds d).repay a.principalPaid a.interestFeeLate).stray
      (fees d.creditLine w.pool a.interestFeeLate) (fees d.pool w.pool a.interestFeeLate) := by
    rw [received_funds (hw.transfer h₁) h₂, hold_funds ho h₁, hpool, hsum]
    ext <;> simp only [Funds.repay, Funds.release, Funds.stray, Funds.hold]
    omega
  refine ⟨a.interestFeeLate, hj, ?_⟩
  split at h₃
  · rename_i hfull
    obtain ⟨w₃, h₃, h₄⟩ := h₃
    rw [(reward_funds h₄).1, release_funds ho h₃, hfunds, if_pos hfull]
    ext <;> simp only [Funds.repay, Funds.release, Funds.stray]
    omega
  · rename_i hrest
    rw [h₃, hfunds, if_neg hrest]

theorem forfeit_funds (hw : w.Sound d) (hs : loan.Sound)
    (h : ForfeitFlow (clients d) env p loan w w') :
    w'.funds d = (w.funds d).after (.forfeit loan) := by
  obtain ⟨token, pool, w₁, w₂, -, -, h₁, h₂, h₃⟩ := h
  have hne := d.creditLine_ne_pool
  have hw₁ : w₁.Sound d := hw.callPool w.vendors (.receiveGuarantee ..) trivial h₁
  rw [(penalize_funds h₃).1]
  -- The pool takes the guarantee first, and writes off what it does not cover.
  have hrecover : w₁.funds d = (w.funds d).recover loan.guaranteeAmount := by
    obtain ⟨-, q, hq, rfl⟩ := callPool_ok.mp h₁
    obtain ⟨-, -, -, -, -, -, -, -, -, -, rfl⟩ := LiquidityPool.receiveGuarantee_ok.mp hq
    ext <;> simp [World.funds, clients, Token.move_balance, LiquidityPool.recovered, Funds.recover,
      hne, hne.symm]
  simp only [Funds.after, ← hrecover, ← principalShortfall_eq hs]
  split at h₂
  · rename_i hpos
    obtain ⟨-, q, hq, rfl⟩ := callPool_ok.mp h₂
    obtain ⟨-, -, -, -, -, -, -, rfl⟩ := LiquidityPool.absorbLoss_ok.mp hq
    rw [max_eq_right (Int.le_of_lt hpos)]
    rfl
  · rename_i hneg
    have htotal : 0 ≤ w₁.pool.totalLiquidity := hw₁.pool.accounts.total_nonneg
    have hlocked : 0 ≤ w₁.pool.lockedLiquidity := hw₁.pool.accounts.locked_nonneg
    rw [h₂, max_eq_left (by omega)]
    simp [World.funds, Funds.absorb, htotal, hlocked]

/-! ## Steps -/

/-- A step sends the account `a` nothing from elsewhere: no transfer and no mint
to it, no loan to a vendor there, no fee. -/
def Undisturbed (a : Address) (s : State) (l : Label) : Prop :=
  match l.action with
  | .transfer _ target _ => target ≠ a
  | .mint target _ => target ≠ a
  | .line (.createLoan r) => r.vendor ≠ a
  | .line (.approveLoan id) => ∀ loan ∈ s.line.book.loan id, loan.vendor ≠ a
  | .line (.repayLoan ..) => s.world.pool.treasury ≠ some a ∧ s.world.pool.merchantFund ≠ some a
  | .line (.repayInstallment ..) =>
    s.world.pool.treasury ≠ some a ∧ s.world.pool.merchantFund ≠ some a
  | _ => True

instance (a : Address) (s : State) (l : Label) : Decidable (Undisturbed a s l) := by
  unfold Undisturbed
  split <;> infer_instance

/-- The entry that goes with an action: one of the call's, none otherwise. -/
def Action.Records (env : Env) (e : Event) : Action → Prop
  | .line call => CreditLine.Records env call e
  | _ => e = .idle

/-- What a step does to the book and the funds: one entry, liquidity provided,
and what comes in from elsewhere. -/
structure Turn (d : Deployment) (s : State) (l : Label) (s' : State) (e : Event)
    (provided escrow cash : Int) : Prop where
  records : l.action.Records l.env e
  valid : e.Valid s.line.book
  book : s'.line.book = e.apply s.line.book
  funds : s'.world.funds d
    = (((s.world.funds d).after e).provide provided).stray escrow cash
  escrow_nonneg : 0 ≤ escrow
  cash_nonneg : 0 ≤ cash
  escrow_undisturbed : Undisturbed d.creditLine s l → escrow = 0
  cash_undisturbed : Undisturbed d.pool s l → cash = 0

theorem Turn.line {call : Call} {x y : Int} (he : Effect (clients d) env call s s' e)
    (hf : s'.world.funds d = ((s.world.funds d).after e).stray x y) (hx : 0 ≤ x) (hy : 0 ≤ y)
    (hux : Undisturbed d.creditLine s ⟨env, .line call⟩ → x = 0)
    (huy : Undisturbed d.pool s ⟨env, .line call⟩ → y = 0) :
    ∃ e provided x y, Turn d s ⟨env, .line call⟩ s' e provided x y := by
  refine ⟨e, 0, x, y, he.records, he.valid, he.book, ?_, hx, hy, hux, huy⟩
  rw [hf]
  simp only [Funds.provide, Int.add_zero]

theorem stray_zero (f : Funds) : f.stray 0 0 = f := by
  simp only [Funds.stray, Int.add_zero]

theorem exec_turn {call : Call} (hi : Invariant d s) (henv : env.External d)
    (h : exec (clients d) env call s = .ok s') :
    ∃ e provided x y, Turn d s ⟨env, .line call⟩ s' e provided x y := by
  obtain ⟨e, he⟩ := exec_effect hi.book h
  -- Most entries bring in nothing from elsewhere.
  have quiet : s'.world.funds d = (s.world.funds d).after e →
      ∃ e provided x y, Turn d s ⟨env, .line call⟩ s' e provided x y := fun hf =>
    Turn.line (x := 0) (y := 0) he (hf.trans (stray_zero _).symm) (Int.le_refl 0) (Int.le_refl 0)
      (fun _ => rfl) (fun _ => rfl)
  have hvalid := he.valid
  have hflow := he.flow
  cases hvalid with
  | idle => exact quiet (congrArg (World.funds d) hflow)
  | accrue => exact quiet (congrArg (World.funds d) hflow)
  | @issue loan hid hsound =>
    have ho := henv.outsider hflow.auth
    obtain ⟨token, w₁, -, h₁, h₂⟩ := hflow.payments
    split at h₂
    · rename_i hactive
      have hq := Int.sub_nonneg_of_le hsound.guarantee_le
      have hvendor : ∀ a, Undisturbed a s ⟨env, .line call⟩ → loan.vendor ≠ a := by
        intro a hu
        cases he.records with
        | createLoan hissued => rwa [hissued.vendor]
        | requestLoan hissued hpending => simp [hpending] at hactive
      refine Turn.line he ?_ (received_nonneg hq) (received_nonneg hq)
        (fun hu => received_of_ne (hvendor _ hu)) (fun hu => received_of_ne (hvendor _ hu))
      rw [lend_funds hsound.guarantee_le h₂, hold_funds ho h₁]
      simp only [Funds.after, if_pos hactive]
    · rename_i hpending
      refine quiet ?_
      rw [h₂, hold_funds ho h₁]
      simp only [Funds.after, if_neg hpending]
  | @activate loan now hold =>
    have hle := (hi.book.loans _ _ hold).guarantee_le
    have hq := Int.sub_nonneg_of_le hle
    -- What is lent goes to the vendor, who may be either account.
    have hvendor : ∀ a, Undisturbed a s ⟨env, .line call⟩ → loan.vendor ≠ a := by
      intro a hu
      cases he.records
      exact hu loan hold
    exact Turn.line he (lend_funds hle hflow.lend) (received_nonneg hq) (received_nonneg hq)
      (fun hu => received_of_ne (hvendor _ hu)) (fun hu => received_of_ne (hvendor _ hu))
  | @cancel loan hold =>
    obtain ⟨token, -, hflow⟩ := hflow
    exact quiet (release_funds (hi.outsiders _ _ hold) hflow)
  | @repay loan now amount schedule hold hactive hfits hpos hle =>
    have hnow : now = env.timestamp := by
      cases he.records <;> rfl
    -- So may the recipients of the fees.
    have hfees : ∀ a, Undisturbed a s ⟨env, .line call⟩ →
        s.world.pool.treasury ≠ some a ∧ s.world.pool.merchantFund ≠ some a := by
      intro a hu
      cases he.records <;> exact hu
    have hs := (hi.book.loans _ _ hold).accrued hactive (hnow ▸ hfits)
    obtain ⟨interest, hj, hf⟩ := repay_funds hi.world (hi.outsiders _ _ hold) hs
      (Int.le_of_lt hpos) (hnow ▸ hle) hnow hflow.2
    exact Turn.line he hf (fees_nonneg hj) (fees_nonneg hj)
      (fun hu => fees_of_ne (hfees _ hu).1 (hfees _ hu).2)
      (fun hu => fees_of_ne (hfees _ hu).1 (hfees _ hu).2)
  | @forfeit loan hold => exact quiet (forfeit_funds hi.world (hi.book.loans _ _ hold) hflow)

/-- A step outside the credit line. -/
theorem Turn.outside (provided : Int) {x y : Int} (hrecords : l.action.Records l.env .idle)
    (hline : s'.line = s.line)
    (hf : s'.world.funds d = ((s.world.funds d).provide provided).stray x y) (hx : 0 ≤ x)
    (hy : 0 ≤ y) (hux : Undisturbed d.creditLine s l → x = 0)
    (huy : Undisturbed d.pool s l → y = 0) : ∃ e provided x y, Turn d s l s' e provided x y :=
  ⟨.idle, provided, x, y, hrecords, .idle, congrArg Storage.book hline, hf, hx, hy, hux, huy⟩

theorem Turn.quiet {provided : Int} (hrecords : l.action.Records l.env .idle)
    (hline : s'.line = s.line) (hf : s'.world.funds d = (s.world.funds d).provide provided) :
    ∃ e provided x y, Turn d s l s' e provided x y :=
  Turn.outside _ hrecords hline (hf.trans (stray_zero _).symm) (Int.le_refl 0) (Int.le_refl 0)
    (fun _ => rfl) (fun _ => rfl)

/-- Providers change the pool's balance and its liquidity alike; nobody outside
passes for the credit line. -/
theorem pool_funds {active : Address → Option Bool} {call : LiquidityPool.Call}
    {q : LiquidityPool.State} (hw : w.Sound d) (henv : env.External d)
    (hq : LiquidityPool.exec d active env call ⟨w.pool, w.token⟩ = .ok q) :
    ∃ provided, World.funds d { w with pool := q.pool, token := q.token }
      = (w.funds d).provide provided := by
  have houtside : ¬call.OfCreditline := by
    intro hc
    obtain ⟨a, ha, hcl⟩ := LiquidityPool.exec_creditline hq hc
    have hline : a = d.creditLine := hw.pool.config.creditline a hcl
    exact henv.outsider ha (hline ▸ d.creditLine_mem)
  cases call with
  | deposit provider amount =>
    obtain ⟨⟨k, s₁⟩, h₁, rfl⟩ := map_ok.mp hq
    obtain ⟨price, -, hauth, -, -, -, -, -, rfl⟩ := LiquidityPool.deposit_spec h₁
    obtain ⟨hline, hpool⟩ := outsider_ne (henv.outsider hauth)
    refine ⟨amount, ?_⟩
    rw [LiquidityPool.seedDeadShares_eq]
    ext <;> simp [World.funds, Token.move_balance, Funds.provide, hline.symm, hpool.symm,
      d.creditLine_ne_pool]
  | withdraw provider shares =>
    obtain ⟨⟨r, s₁⟩, h₁, rfl⟩ := map_ok.mp hq
    obtain ⟨price, -, hauth, -, -, -, -, -, -, rfl⟩ := LiquidityPool.withdraw_spec h₁
    obtain ⟨hline, hpool⟩ := outsider_ne (henv.outsider hauth)
    refine ⟨-r, ?_⟩
    ext <;> simp [World.funds, Token.move_balance, Funds.provide, hline.symm, hpool.symm,
      d.creditLine_ne_pool, Int.sub_eq_add_neg]
  | fundLoan => exact (houtside trivial).elim
  | receiveRepayment => exact (houtside trivial).elim
  | receiveGuarantee => exact (houtside trivial).elim
  | absorbLoss => exact (houtside trivial).elim
  | distributeInterest => exact (houtside trivial).elim
  | accumulateInterest => exact (houtside trivial).elim
  | _ =>
    obtain ⟨htoken, ⟨haccounts, -, -, -⟩⟩ := LiquidityPool.exec_setter hq trivial
    have htotal : q.pool.totalLiquidity = w.pool.totalLiquidity :=
      congrArg LiquidityPool.Accounts.total haccounts
    have hlocked : q.pool.lockedLiquidity = w.pool.lockedLiquidity :=
      congrArg LiquidityPool.Accounts.locked haccounts
    refine ⟨0, ?_⟩
    simp only [World.funds, htoken, htotal, hlocked, Funds.provide, Int.add_zero]

theorem provide_zero (f : Funds) : f.provide 0 = f := by
  simp only [Funds.provide, Int.add_zero]

theorem Step.turn (h : Step d s l s') (hi : Invariant d s) :
    ∃ e provided x y, Turn d s l s' e provided x y := by
  have hexternal := h.external
  have hstep := h.inside_or_outside
  obtain ⟨env, action⟩ := l
  obtain ⟨line, w⟩ := s'
  rcases hstep with ⟨call, hcall, hexec⟩ | ⟨hline, hout⟩
  · obtain rfl : action = .line call := hcall
    exact exec_turn hi hexternal hexec
  cases hout with
  | pool hq =>
    obtain ⟨provided, hf⟩ := pool_funds hi.world hexternal hq
    exact Turn.quiet rfl hline hf
  | transfer hauth h0 hle =>
    rename_i source target amount
    obtain ⟨hne, hpool⟩ := outsider_ne (hexternal.outsider hauth)
    refine Turn.outside 0 rfl hline ?_ (received_nonneg h0) (received_nonneg h0)
      (fun hu => received_of_ne hu) (fun hu => received_of_ne hu)
    rw [funds_move, received_of_ne hne, received_of_ne hpool, provide_zero]
    simp only [Funds.stray, Int.sub_zero]
  | mint ht =>
    obtain ⟨h0, rfl⟩ := Token.mint_ok.mp ht
    refine Turn.outside 0 rfl hline ?_ (received_nonneg h0) (received_nonneg h0)
      (fun hu => received_of_ne hu) (fun hu => received_of_ne hu)
    rw [funds_mint, provide_zero]
  | _ => exact Turn.quiet rfl hline (provide_zero _).symm

/-! ## Conditions on a step -/

/-- When the step repays a loan, `P` holds of the loan before it and the amount. -/
def OnRepayment (P : Loan → Int → Prop) (s : State) (l : Label) : Prop :=
  match l.action with
  | .line (.repayLoan _ id amount) => ∀ loan ∈ s.line.book.loan id, P loan amount
  | .line (.repayInstallment _ id _ amount) => ∀ loan ∈ s.line.book.loan id, P loan amount
  | _ => True

/-- When the step marks a loan as defaulted, `P` holds of the loan before it. -/
def OnDefault (P : Loan → Prop) (s : State) (l : Label) : Prop :=
  match l.action with
  | .line (.markDefaulted id) => ∀ loan ∈ s.line.book.loan id, P loan
  | _ => True

/-- When the step approves a loan, `P` holds of the loan before it. -/
def OnApproval (P : Loan → Prop) (s : State) (l : Label) : Prop :=
  match l.action with
  | .line (.approveLoan id) => ∀ loan ∈ s.line.book.loan id, P loan
  | _ => True

/-- When the step activates a loan, `P` holds of its borrower. -/
def OnActivation (P : Address → Prop) (s : State) (l : Label) : Prop :=
  match l.action with
  | .line (.createLoan r) => P r.user
  | .line (.approveLoan id) => ∀ loan ∈ s.line.book.loan id, P loan.borrower
  | _ => True

instance (P : Loan → Int → Prop) [∀ loan amount, Decidable (P loan amount)] (s : State)
    (l : Label) : Decidable (OnRepayment P s l) := by
  unfold OnRepayment
  split <;> infer_instance

instance (P : Loan → Prop) [DecidablePred P] (s : State) (l : Label) :
    Decidable (OnDefault P s l) := by
  unfold OnDefault
  split <;> infer_instance

instance (P : Loan → Prop) [DecidablePred P] (s : State) (l : Label) :
    Decidable (OnApproval P s l) := by
  unfold OnApproval
  split <;> infer_instance

instance (P : Address → Prop) [DecidablePred P] (s : State) (l : Label) :
    Decidable (OnActivation P s l) := by
  unfold OnActivation
  split <;> infer_instance

/-- The entry, when it is a repayment, is one of a loan and an amount with `P`. -/
def Event.Repays (P : Loan → Int → Prop) : Event → Prop
  | .repay loan _ amount _ => P loan amount
  | _ => True

def Event.Forfeits (P : Loan → Prop) : Event → Prop
  | .forfeit loan => P loan
  | _ => True

theorem mem_loan_iff {b : Book} {P : Loan → Prop} (h : b.loan loan.loanId = some loan) :
    (∀ x ∈ b.loan loan.loanId, P x) ↔ P loan := by
  simp [h]

theorem Turn.now {now : Nat} {amount provided x y : Int} {schedule : List RepaymentInstallment}
    (ht : Turn d s l s' (.repay loan now amount schedule) provided x y) :
    now = l.env.timestamp := by
  obtain ⟨env, action⟩ := l
  cases action with
  | line call => cases ht.records <;> rfl
  | _ => cases ht.records

theorem Turn.issued {provided x y : Int} (ht : Turn d s l s' (.issue loan) provided x y) :
    ∃ r, loan.Issued r l.env.timestamp := by
  obtain ⟨env, action⟩ := l
  cases action with
  | line call =>
    cases ht.records with
    | createLoan hissued => exact ⟨_, hissued⟩
    | requestLoan hissued => exact ⟨_, hissued⟩
  | _ => cases ht.records

theorem Turn.onRepayment {provided x y : Int} (ht : Turn d s l s' e provided x y)
    (P : Loan → Int → Prop) : OnRepayment P s l ↔ Event.Repays P e := by
  obtain ⟨hrecords, hvalid, -⟩ := ht
  obtain ⟨env, action⟩ := l
  cases action with
  | line call =>
    cases hrecords with
    | passive hpassive => cases call <;> first | rfl | exact hpassive.elim
    | repayLoan loan amount =>
      cases hvalid with
      | repay hold => exact mem_loan_iff (P := fun loan => P loan amount) hold
    | repayInstallment loan index amount =>
      cases hvalid with
      | repay hold => exact mem_loan_iff (P := fun loan => P loan amount) hold
    | _ => rfl
  | _ =>
    subst hrecords
    rfl

theorem Turn.onDefault {provided x y : Int} (ht : Turn d s l s' e provided x y)
    (P : Loan → Prop) : OnDefault P s l ↔ Event.Forfeits P e := by
  obtain ⟨hrecords, hvalid, -⟩ := ht
  obtain ⟨env, action⟩ := l
  cases action with
  | line call =>
    cases hrecords with
    | passive hpassive => cases call <;> first | rfl | exact hpassive.elim
    | markDefaulted loan =>
      cases hvalid with
      | forfeit hold => exact mem_loan_iff hold
    | _ => rfl
  | _ =>
    subst hrecords
    rfl

end StepFi.Protocol

import StepFi.Protocol.Funds

/-!
# Guarantee escrow

The guarantees of the pending and active loans are what the credit line holds.
Every transfer out of the credit line is the passing on of a repayment or the
release of one loan's guarantee (`released`), and over a run a loan's guarantee
is released once, when the loan is closed, to whom its status says
(`settlement`).
-/

namespace StepFi.Protocol

open Lib CreditLine

variable {d : Deployment} {env : Env} {s s' s₀ : State} {l : Label} {e : Event} {b : Book}
variable {loan : Loan} {p : Storage} {w w' : World} {tr : List (State × Label)}

/-- The guarantee the credit line holds for a loan. -/
def escrowed (loan : Loan) : Int :=
  if loan.status = .pending ∨ loan.status = .active then loan.guaranteeAmount else 0

/-- The guarantees of all pending and active loans. -/
def escrow (b : Book) : Int := tally b.counter b.loan escrowed

def refund (d : Deployment) (loan : Loan) : Transfer :=
  ⟨d.creditLine, loan.borrower, loan.guaranteeAmount⟩

def forfeiture (d : Deployment) (loan : Loan) : Transfer :=
  ⟨d.creditLine, d.pool, loan.guaranteeAmount⟩

/-- How a loan's guarantee has left escrow: back to the borrower once paid or
cancelled, to the pool once defaulted, not at all before. -/
def settlement (d : Deployment) (loan : Option Loan) : List Transfer :=
  match loan with
  | none => []
  | some loan =>
    match loan.status with
    | .pending => []
    | .active => []
    | .paid => [refund d loan]
    | .cancelled => [refund d loan]
    | .defaulted => [forfeiture d loan]

/-! ## What a step releases -/

/-- The refund of a payment of the whole balance. -/
def refundOnFull (d : Deployment) (now : Nat) (loan : Loan) (amount : Int) :
    List (Nat × Transfer) :=
  if loan.remainingBalance + lateFee now loan = amount then [(loan.loanId, refund d loan)] else []

/-- The releases of a step, with the loan's id. -/
def released (d : Deployment) (s : State) (l : Label) : List (Nat × Transfer) :=
  let of (id : Nat) (f : Loan → List (Nat × Transfer)) := (s.line.book.loan id).elim [] f
  match l.action with
  | .line (.cancelLoan _ id) => of id fun loan => [(id, refund d loan)]
  | .line (.repayLoan _ id amount) =>
    of id fun loan => refundOnFull d l.env.timestamp loan amount
  | .line (.repayInstallment _ id _ amount) =>
    of id fun loan => refundOnFull d l.env.timestamp loan amount
  | .line (.markDefaulted id) => of id fun loan => [(id, forfeiture d loan)]
  | _ => []

/-- The repayment a step passes on to the pool. -/
def passedOn (d : Deployment) (l : Label) : List Transfer :=
  match l.action with
  | .line (.repayLoan _ _ amount) => [⟨d.creditLine, d.pool, amount⟩]
  | .line (.repayInstallment _ _ _ amount) => [⟨d.creditLine, d.pool, amount⟩]
  | _ => []

/-- The releases of the loan `id` over a run. -/
def releasesOf (d : Deployment) (id : Nat) (tr : List (State × Label)) : List Transfer :=
  ((tr.flatMap fun x => released d x.1 x.2).filter (·.1 = id)).map Prod.snd

/-- The transfers out of the credit line the steps of a run account for. -/
def accounted (d : Deployment) (tr : List (State × Label)) : List Transfer :=
  tr.flatMap fun x => passedOn d x.2 ++ (released d x.1 x.2).map Prod.snd

/-- The release that goes with an entry. -/
def Event.released (d : Deployment) : Event → List (Nat × Transfer)
  | .cancel loan => [(loan.loanId, refund d loan)]
  | .repay loan now amount _ => refundOnFull d now loan amount
  | .forfeit loan => [(loan.loanId, forfeiture d loan)]
  | _ => []

def Event.passedOn (d : Deployment) : Event → List Transfer
  | .repay _ _ amount _ => [⟨d.creditLine, d.pool, amount⟩]
  | _ => []

theorem released_eq (hrecords : l.action.Records l.env e) (hvalid : e.Valid s.line.book) :
    released d s l = Event.released d e := by
  obtain ⟨env, action⟩ := l
  cases action with
  | line call =>
    cases hrecords with
    | passive hpassive => cases call <;> first | rfl | exact hpassive.elim
    | cancelLoan caller loan =>
      cases hvalid with
      | cancel hold => simp [released, Event.released, hold]
    | repayLoan loan amount =>
      cases hvalid with
      | repay hold => simp [released, Event.released, hold]
    | repayInstallment loan index amount =>
      cases hvalid with
      | repay hold => simp [released, Event.released, hold]
    | markDefaulted loan =>
      cases hvalid with
      | forfeit hold => simp [released, Event.released, hold]
    | _ => rfl
  | _ =>
    cases hrecords
    rfl

theorem passedOn_eq (hrecords : l.action.Records l.env e) :
    passedOn d l = Event.passedOn d e := by
  obtain ⟨env, action⟩ := l
  cases action with
  | line call =>
    cases hrecords with
    | passive hpassive => cases call <;> first | rfl | exact hpassive.elim
    | _ => rfl
  | _ =>
    cases hrecords
    rfl

/-! ## Each guarantee leaves once -/

theorem settlement_revise {new old : Loan} {change : Int} {out : List (Nat × Transfer)} {id : Nat}
    (hold : b.loan new.loanId = some old)
    (hkeyed : ∀ x ∈ out, x.1 = new.loanId)
    (hnew : settlement d (some new) = settlement d (some old) ++ out.map Prod.snd) :
    settlement d ((b.revise new change).loan id)
      = settlement d (b.loan id) ++ (out.filter (·.1 = id)).map Prod.snd := by
  by_cases hid : id = new.loanId
  · subst hid
    have hall : out.filter (fun x => x.1 = new.loanId) = out := by
      simpa using hkeyed
    rw [hall, hold, ← hnew]
    simp [Book.revise]
  · have hnone : out.filter (fun x => x.1 = id) = [] := by
      simp only [List.filter_eq_nil_iff, decide_eq_true_eq]
      intro x hx hxid
      exact hid (hxid.symm.trans (hkeyed x hx))
    rw [hnone]
    simp [Book.revise, Function.update_of_ne hid]

/-- An entry releases a guarantee exactly when it closes the loan. -/
theorem settlement_apply (hv : e.Valid b) (hs : b.Sound) (id : Nat) :
    settlement d ((e.apply b).loan id)
      = settlement d (b.loan id) ++ ((Event.released d e).filter (·.1 = id)).map Prod.snd := by
  cases hv with
  | idle => simp [Event.released, Event.apply]
  | @issue loan hid _ hstatus =>
    by_cases hi : id = loan.loanId
    · subst hi
      -- A new loan has released nothing: its identifier was free.
      have hfresh : b.loan loan.loanId = none := by rw [hid, hs.filled.fresh]
      rcases hstatus with h | h <;>
        simp [Event.released, Event.apply, Book.revise, hfresh, settlement, h]
    · simp [Event.released, Event.apply, Book.revise, Function.update_of_ne hi]
  | @activate loan now hold hpending =>
    refine settlement_revise hold (by simp [Event.released]) ?_
    simp [settlement, hpending, Event.released]
  | @cancel loan hold hpending =>
    refine settlement_revise hold (by simp [Event.released]) ?_
    simp [settlement, hpending, Event.released, refund]
  | @accrue loan now hold hactive =>
    refine settlement_revise hold (by simp [Event.released]) ?_
    simp [settlement, hactive, Event.released, Loan.accrued, Loan.charged]
  | @repay loan now amount schedule hold hactive =>
    refine settlement_revise hold ?_ ?_
    · simp only [Event.released, refundOnFull]
      split <;> simp [Loan.repaid, Loan.paidDown, Loan.accrued, Loan.charged]
    · have hbalance : (loan.accrued now).remainingBalance
          = loan.remainingBalance + lateFee now loan := rfl
      simp only [settlement, hactive, Event.released, refundOnFull, Loan.repaid, hbalance]
      by_cases hfull : loan.remainingBalance + lateFee now loan = amount
      · simp [hfull, refund, Loan.paidDown, Loan.accrued, Loan.charged]
      · simp [hfull]
  | @forfeit loan hold hactive =>
    refine settlement_revise hold (by simp [Event.released]) ?_
    simp [settlement, hactive, Event.released, forfeiture]

/-! ## The escrow -/

theorem escrowed_nonneg (hs : loan.Sound) : 0 ≤ escrowed loan := by
  unfold escrowed
  split
  · exact Int.le_of_lt hs.guarantee_pos
  · exact Int.le_refl 0

theorem escrowed_open (h : loan.status = .pending ∨ loan.status = .active) :
    escrowed loan = loan.guaranteeAmount := if_pos h

/-- An entry moves the credit line's balance as it moves the guarantees. -/
theorem escrow_change (hv : e.Valid b) (f : Funds) :
    (f.after e).escrow = f.escrow + e.change escrowed := by
  cases hv with
  | idle => exact (Int.add_zero _).symm
  | @issue loan _ _ hstatus =>
    simp only [Event.change, escrowed_open hstatus.symm, Funds.after]
    split <;> rfl
  | @activate loan now _ hpending =>
    simp [Event.change, escrowed, hpending, Funds.after, Funds.lend]
  | @cancel loan _ hpending =>
    simp [Event.change, escrowed, hpending, Funds.after, Funds.release, Int.sub_eq_add_neg]
  | @accrue loan now _ hactive =>
    simp [Event.change, escrowed, hactive, Funds.after, Loan.accrued, Loan.charged]
  | @repay loan now amount schedule _ hactive =>
    simp only [Event.change, escrowed, hactive, Funds.after, Loan.repaid]
    split
    · simp [Funds.repay, Funds.release, Int.sub_eq_add_neg]
    · simp [Funds.repay, Loan.paidDown, Loan.accrued, Loan.charged]
  | @forfeit loan _ hactive =>
    simp [Event.change, escrowed, hactive, Funds.after, Funds.recover, Funds.absorb,
      Int.sub_eq_add_neg]

/-- What the credit line holds beyond the guarantees. -/
def excess (d : Deployment) (s : State) : Int :=
  s.world.token.balance d.creditLine - escrow s.line.book

theorem Step.excess (h : Step d s l s') (hi : Invariant d s) :
    Protocol.excess d s ≤ Protocol.excess d s' ∧
      (Undisturbed d.creditLine s l → Protocol.excess d s' = Protocol.excess d s) := by
  obtain ⟨e, provided, x, y, ht⟩ := h.turn hi
  have hbalance := congrArg Funds.escrow ht.funds
  have hbook : escrow s'.line.book = escrow s.line.book + e.change escrowed := by
    rw [ht.book]
    exact ht.valid.tally_apply hi.book escrowed
  have hx := ht.escrow_nonneg
  simp only [Funds.stray, Funds.provide, escrow_change ht.valid, World.funds] at hbalance
  simp only [Protocol.excess, hbook, hbalance]
  refine ⟨by omega, fun hu => ?_⟩
  have := ht.escrow_undisturbed hu
  omega

theorem Deployed.excess (h : Deployed s) :
    Protocol.excess d s = s.world.token.balance d.creditLine := by
  rw [Protocol.excess, h.line]
  exact Int.sub_zero _

/-- The credit line always holds the guarantees it owes. -/
theorem escrow_covered (h : Reachable Deployed (Step d) s) : 0 ≤ excess d s := by
  refine h.invariant (P := fun s => 0 ≤ excess d s) (fun s h0 => ?_)
    fun s l s' hreach hp hstep => ?_
  · rw [h0.excess]
    exact h0.solvent d.creditLine
  · exact Int.le_trans hp (hstep.excess (invariant_of_reachable hreach)).1

/-- So it holds each open loan's own guarantee. -/
theorem guarantee_held (h : Reachable Deployed (Step d) s) {id : Nat}
    (hloan : s.line.book.loan id = some loan)
    (hstatus : loan.status = .pending ∨ loan.status = .active) :
    loan.guaranteeAmount ≤ s.world.token.balance d.creditLine := by
  have hb := (invariant_of_reachable h).book
  have hcovered := escrow_covered h
  have hle : escrowed loan ≤ escrow s.line.book :=
    le_tally (fun id loan hl => escrowed_nonneg (hb.loans id loan hl)) (hb.mem hloan) hloan
  rw [escrowed_open hstatus] at hle
  simp only [excess] at hcovered
  omega

/-! ## What leaves the credit line -/

theorem transfer_outflows {token source target : Address} {amount : Int}
    (h : (clients d).transfer env token source target amount w = .ok w') :
    w'.token.outflows d.creditLine = w.token.outflows d.creditLine ++
      if source = d.creditLine then [⟨source, target, amount⟩] else [] := by
  obtain ⟨-, -, -, -, rfl⟩ := transfer_ok.mp h
  exact Token.outflows_move ..

theorem lend_outflows (h : LendFlow (clients d) env p loan w w') :
    w'.token.outflows d.creditLine = w.token.outflows d.creditLine := by
  obtain ⟨pool, -, h⟩ := h
  split at h
  · obtain ⟨-, q, hq, rfl⟩ := callPool_ok.mp h
    obtain ⟨-, -, -, -, -, _, _, _, rfl⟩ := LiquidityPool.fundLoan_spec hq
    have hne := d.creditLine_ne_pool.symm
    exact (Token.outflows_move ..).trans (by rw [if_neg hne, List.append_nil])
  · rw [h]

theorem received_outflows {pool : Address} {principal interest : Int}
    (h : (clients d).receiveRepayment env pool d.creditLine principal interest w = .ok w') :
    w'.token.outflows d.creditLine = w.token.outflows d.creditLine ++
      [⟨d.creditLine, d.pool, principal + interest⟩] := by
  obtain ⟨-, q, hq, rfl⟩ := callPool_ok.mp h
  obtain ⟨-, -, -, -, -, -, rfl⟩ := LiquidityPool.receiveRepayment_spec hq
  obtain ⟨fees, hlog, hfees⟩ := LiquidityPool.repaidLedger_log d w.pool d.creditLine principal
    interest w.token
  have hnone : fees.filter (fun x => x.source = d.creditLine) = [] := by
    simp only [List.filter_eq_nil_iff, decide_eq_true_eq]
    intro x hx hsource
    exact d.creditLine_ne_pool (hsource.symm.trans (hfees x hx))
  simp [Token.outflows, hlog, hnone]

/-- What a borrower pays in is no transfer out of the credit line. -/
theorem paid_outflows {borrower token : Address} {amount : Int} (ho : borrower ∉ d.contracts)
    (h : (clients d).transfer env token borrower d.creditLine amount w = .ok w') :
    w'.token.outflows d.creditLine = w.token.outflows d.creditLine := by
  rw [transfer_outflows h, if_neg (outsider_ne ho).1, List.append_nil]

theorem repay_outflows {amount : Int} {schedule : List RepaymentInstallment}
    (ho : loan.borrower ∉ d.contracts) (hs : (loan.accrued env.timestamp).Sound) (h0 : 0 ≤ amount)
    (hle : amount ≤ (loan.accrued env.timestamp).remainingBalance)
    (h : RepayFlow (clients d) env p loan amount schedule w w') :
    w'.token.outflows d.creditLine = w.token.outflows d.creditLine ++
      (⟨d.creditLine, d.pool, amount⟩ ::
        (refundOnFull d env.timestamp loan amount).map Prod.snd) := by
  obtain ⟨token, pool, w₁, w₂, -, -, h₁, h₂, h₃⟩ := h
  obtain ⟨-, hsum⟩ := (allocate_spec hs h0 hle).interestFeeLate
  have hpassed := received_outflows h₂
  rw [hsum, paid_outflows ho h₁] at hpassed
  have hbalance : (loan.accrued env.timestamp).remainingBalance
      = loan.remainingBalance + lateFee env.timestamp loan := rfl
  rw [hbalance] at h₃
  simp only [refundOnFull]
  split at h₃
  · rename_i hfull
    obtain ⟨w₃, h₃, h₄⟩ := h₃
    rw [(reward_funds h₄).2, transfer_outflows h₃, hpassed, if_pos hfull]
    simp [refund, clients]
  · rename_i hrest
    rw [h₃, hpassed, if_neg hrest]
    rfl

theorem forfeit_outflows (h : ForfeitFlow (clients d) env p loan w w') :
    w'.token.outflows d.creditLine
      = w.token.outflows d.creditLine ++ [forfeiture d loan] := by
  obtain ⟨token, pool, w₁, w₂, -, -, h₁, h₂, h₃⟩ := h
  have hforfeit : w₁.token.outflows d.creditLine
      = w.token.outflows d.creditLine ++ [forfeiture d loan] := by
    obtain ⟨-, q, hq, rfl⟩ := callPool_ok.mp h₁
    obtain ⟨-, -, -, -, -, -, -, -, -, -, rfl⟩ := LiquidityPool.receiveGuarantee_ok.mp hq
    refine (Token.outflows_move ..).trans ?_
    rw [clients_self, if_pos rfl]
    rfl
  -- The write-off and the penalty move no tokens.
  have hsame : w₂.token = w₁.token := by
    split at h₂
    · obtain ⟨-, q, hq, rfl⟩ := callPool_ok.mp h₂
      obtain ⟨-, -, -, -, -, -, -, rfl⟩ := LiquidityPool.absorbLoss_ok.mp hq
      rfl
    · rw [h₂]
  rw [(penalize_funds h₃).2, hsame, hforfeit]

/-- The transfers out of the credit line that go with an entry. -/
theorem flow_outflows (hb : s.line.book.Sound) (hv : e.Valid s.line.book)
    (ho : ∀ id loan, s.line.book.loan id = some loan → loan.borrower ∉ d.contracts)
    (hissue : ∀ loan, e = .issue loan → loan.borrower ∉ d.contracts)
    (hnow : ∀ loan now amount schedule, e = .repay loan now amount schedule →
      now = env.timestamp)
    (h : Flow (clients d) env p w w' e) :
    w'.token.outflows d.creditLine = w.token.outflows d.creditLine ++
      (Event.passedOn d e ++ (Event.released d e).map Prod.snd) := by
  cases hv with
  | idle => simp [Event.passedOn, Event.released, show w' = w from h]
  | accrue => simp [Event.passedOn, Event.released, show w' = w from h]
  | @issue loan =>
    obtain ⟨token, w₁, -, h₁, h₂⟩ := h.payments
    have hpaid := paid_outflows (hissue loan rfl) h₁
    simp only [Event.passedOn, Event.released, List.map_nil, List.append_nil]
    split at h₂
    · rw [lend_outflows h₂, hpaid]
    · rw [h₂, hpaid]
  | activate =>
    simp only [Event.passedOn, Event.released, List.map_nil, List.append_nil]
    exact lend_outflows h.lend
  | cancel =>
    obtain ⟨token, -, h⟩ := h
    rw [transfer_outflows h, clients_self, if_pos rfl]
    rfl
  | @repay loan now amount schedule hold hactive hfits hpos hle =>
    obtain rfl := hnow loan now amount schedule rfl
    exact repay_outflows (ho _ _ hold) ((hb.loans _ _ hold).accrued hactive hfits)
      (Int.le_of_lt hpos) hle h.2
  | @forfeit loan => exact forfeit_outflows h

theorem Step.outflows (h : Step d s l s') (hi : Invariant d s) :
    s'.world.token.outflows d.creditLine = s.world.token.outflows d.creditLine ++
      (passedOn d l ++ (released d s l).map Prod.snd) := by
  have hexternal := h.external
  have hstep := h.inside_or_outside
  obtain ⟨env, action⟩ := l
  obtain ⟨line, w⟩ := s'
  rcases hstep with ⟨call, hcall, hexec⟩ | ⟨-, hout⟩
  · obtain rfl : action = .line call := hcall
    obtain ⟨e, he⟩ := exec_effect hi.book hexec
    have hnow : ∀ loan now amount schedule, e = .repay loan now amount schedule →
        now = env.timestamp := by
      rintro loan now amount schedule rfl
      cases he.records <;> rfl
    have hissue : ∀ loan, e = .issue loan → loan.borrower ∉ d.contracts := by
      rintro loan rfl
      exact hexternal.outsider he.flow.auth
    rw [flow_outflows hi.book he.valid hi.outsiders hissue hnow he.flow,
      released_eq (l := ⟨env, .line call⟩) he.records he.valid,
      passedOn_eq (l := ⟨env, .line call⟩) he.records]
  -- Outside the credit line nothing of the credit line's moves.
  have quiet : ∀ new, w.token.log = s.world.token.log ++ new →
      (∀ x ∈ new, x.source ≠ d.creditLine) →
      w.token.outflows d.creditLine = s.world.token.outflows d.creditLine
        ++ ([] ++ ([] : List (Nat × Transfer)).map Prod.snd) := by
    intro new hlog hne
    rw [Token.outflows_append hlog hne]
    simp
  cases hout with
  | pool hq =>
    obtain ⟨new, hlog, hsources⟩ := LiquidityPool.exec_log hq
    refine quiet new hlog fun x hx hsource => ?_
    rcases hsources x hx with hpool | hauth
    · exact d.creditLine_ne_pool (hsource.symm.trans hpool)
    · exact (outsider_ne (hexternal.outsider hauth)).1 hsource
  | transfer hauth =>
    have hne := (outsider_ne (hexternal.outsider hauth)).1
    exact quiet _ (Token.move_log ..) (by simpa using hne)
  | mint ht =>
    obtain ⟨-, rfl⟩ := Token.mint_ok.mp ht
    exact quiet [] (List.append_nil _).symm (by simp)
  | _ => exact quiet [] (List.append_nil _).symm (by simp)

/-! ## Cancellation -/

/-- The token's own failures are not the credit line's. -/
theorem transfer_error {token source target : Address} {amount : Int} {err : CreditLineError} :
    (clients d).transfer env token source target amount w ≠ .error (.creditLine err) := by
  simp only [clients, map_error, Token.transferAt, Token.transfer, bind_error, ensure_error,
    pure_error, reduceCtorEq, and_false, exists_false, or_self, ne_eq, not_false_eq_true]

theorem balance_ok {token account : Address} {x : Int} :
    (clients d).balance token account w = .ok x ↔
      token = d.token ∧ w.token.balance account = x := by
  simp only [clients, bind_ok, ensure_ok, pure_ok, exists_const]

theorem balance_error {token account : Address} {err : CreditLineError} :
    (clients d).balance token account w ≠ .error (.creditLine err) := by
  simp only [clients, bind_error, ensure_error, pure_error, reduceCtorEq, and_false, exists_false,
    or_self, ne_eq, not_false_eq_true]

theorem enterNonReentrant_error {err : Failure} : enterNonReentrant p = .error err ↔
    p.reentrancyLocked ≠ false ∧ .creditLine .reentrancyDetected = err := by
  simp only [enterNonReentrant, bind_error, pure_error, ensure_error, and_false, exists_false,
    or_false, ne_eq]

/-- The refund of a cancellation is always there. -/
theorem cancelLoan_refundable (h : Reachable Deployed (Step d) s) (env : Env) (caller : Address)
    (id : Nat) : cancelLoan (clients d) env caller id s
      ≠ .error (.creditLine .insufficientRefundBalance) := by
  intro hfail
  have hb := (invariant_of_reachable h).book
  simp only [cancelLoan, requireAuth, requireNotPaused, readLoan, getAdmin, bind_error, pure_error,
    ensure_error, demand_error, ensure_ok, demand_ok, exists_const, reduceCtorEq, and_false,
    false_or, Failure.creditLine.injEq, balance_error, balance_ok, enterNonReentrant_error,
    enterNonReentrant_ok] at hfail
  obtain ⟨-, -, loan, hloan, hpending, _, -, -, _, -, _, ⟨-, rfl⟩, hrest⟩ := hfail
  have hstored : s.line.book.loan id = some loan := hloan
  have hheld := guarantee_held h hstored (.inl hpending)
  -- Every failure after the balance check is another error, or no failure at all.
  rcases hrest with ⟨hshort, -⟩ | ⟨-, line, ⟨-, rfl⟩, hwrite | ⟨_, -, hpay | ⟨_, hnone⟩⟩⟩
  · exact hshort hheld
  · obtain rfl := hb.keyed _ _ hstored
    have hkept : (Storage.book { s.line with reentrancyLocked := true }).loan loan.loanId
        = some loan := hstored
    have hstores : writeLoan { loan with status := .cancelled } _ = .ok _ := writeLoan_stored hkept
    cases hstores.symm.trans hwrite
  · split at hpay
    · exact transfer_error hpay
    · cases hpay
  · exact hnone

/-! ## Runs -/

/-- The releases and transfers of a run, as its last step extends them. -/
theorem releasesOf_snoc (d : Deployment) (id : Nat) (tr : List (State × Label)) (s : State)
    (l : Label) : releasesOf d id (tr ++ [(s, l)]) = releasesOf d id tr
      ++ ((released d s l).filter (·.1 = id)).map Prod.snd := by
  simp [releasesOf]

theorem accounted_snoc (d : Deployment) (tr : List (State × Label)) (s : State) (l : Label) :
    accounted d (tr ++ [(s, l)]) = accounted d tr
      ++ (passedOn d l ++ (released d s l).map Prod.snd) := by
  simp [accounted]

theorem settlement_run (h : Run (Step d) s₀ tr s) (h0 : Deployed s₀) (id : Nat) :
    releasesOf d id tr = settlement d (s.line.book.loan id) := by
  induction h with
  | nil =>
    rw [h0.line]
    rfl
  | @snoc tr t u l hr hs ih =>
    have hi := invariant_of_reachable (hr.reachable h0)
    obtain ⟨e, provided, x, y, ht⟩ := hs.turn hi
    rw [releasesOf_snoc, ih, ht.book, settlement_apply ht.valid hi.book,
      released_eq ht.records ht.valid]

theorem accounted_run (h : Run (Step d) s₀ tr s) (h0 : Deployed s₀) :
    s.world.token.outflows d.creditLine = accounted d tr := by
  induction h with
  | nil =>
    rw [Token.outflows, h0.log]
    rfl
  | @snoc tr t u l hr hs ih =>
    rw [accounted_snoc, ← ih, hs.outflows (invariant_of_reachable (hr.reachable h0))]

/-- In every state a run from deployment reaches that sends the credit line
nothing from elsewhere: its balance is the guarantees of the pending and active
loans; each loan's guarantee has left once if the loan is closed, to whom its
status says, and not otherwise; nothing else has left but the repayments, in full
to the pool; and no cancellation lacks the refund. -/
theorem escrow_exact (h : Run (Step d) s₀ tr s) (h0 : Deployed s₀)
    (hcash : s₀.world.token.balance d.creditLine = 0)
    (hsteps : ∀ x ∈ tr, Undisturbed d.creditLine x.1 x.2) :
    s.world.token.balance d.creditLine = escrow s.line.book ∧
    (∀ id, releasesOf d id tr = settlement d (s.line.book.loan id)) ∧
    s.world.token.outflows d.creditLine = accounted d tr ∧
    ∀ env caller id, cancelLoan (clients d) env caller id s
      ≠ .error (.creditLine .insufficientRefundBalance) := by
  have hexact := (h.states_of_steps (P := fun s => excess d s = 0)
    (C := fun s l => Undisturbed d.creditLine s l) h0 (h0.excess.trans hcash)
    (fun s l s' hreach hp hu hstep =>
      ((hstep.excess (invariant_of_reachable hreach)).2 hu).trans hp) hsteps).2
  refine ⟨?_, settlement_run h h0, accounted_run h h0, cancelLoan_refundable (h.reachable h0)⟩
  simp only [excess] at hexact
  omega

/-- Two loans over `200` each, the first paid in full. -/
theorem escrow_exact_sample : ∃ (tr : List (State × Label)) (s : State),
    s.world.token.balance 1 = 200 ∧ escrow s.line.book = 200 ∧
      releasesOf .sample 1 tr = [⟨1, 21, 200⟩] ∧
      s.world.token.outflows 1 = accounted .sample tr := by
  have hrun : (replay (take .sample) sampleStart
      (configure ++ [openLoan 21, openLoan 22, repay 21 1 1070])).toOption.map
      (fun r => (r.2.world.token.balance 1, releasesOf .sample 1 r.1,
        decide (∀ x ∈ r.1, Undisturbed Deployment.sample.creditLine x.1 x.2)))
        = some (200, [⟨1, 21, 200⟩], true) := by decide +kernel
  obtain ⟨tr, s, hr, hobs⟩ := replay_observed hrun
  simp only [Prod.mk.injEq] at hobs
  obtain ⟨hcash, hreleased, hsteps⟩ := hobs
  have hrun : Run (Step .sample) sampleStart tr s := run_of_replay (by decide) hr
  obtain ⟨hescrow, -, hout, -⟩ :=
    escrow_exact hrun sampleStart_deployed rfl (of_decide_eq_true hsteps)
  exact ⟨tr, s, hcash, hescrow.symm.trans hcash, hreleased, hout⟩

end StepFi.Protocol

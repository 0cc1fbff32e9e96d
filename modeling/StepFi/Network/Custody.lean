import StepFi.Network.Refinement
import StepFi.Protocol.Outlays

/-!
# Whose assets a run can touch

Two results about every run of the whole network. What the pool pays out is the
principal of the loans then opened, for vendors its registry approves at that moment,
the worth of the shares then burnt, and the fees on the payments then taken. And an
account that authorises nothing keeps its tokens, its shares and the terms of its
loans, whatever everyone else does.
-/

namespace StepFi.Network

open Lib CreditLine Protocol

variable {n : Site} {env : Env} {s s' s₀ : State} {l : Label} {tr : List (State × Label)}
variable {a : Address}

/-! ## The transfers of a step -/

/-- A step other than a mint moves tokens by payments only. -/
theorem Step.pays (hs : Step n s l s') (hi : Protocol.Invariant n.core (s.protocol n)) :
    Pays (Disbursement n.core l.env) s.token s'.token ∨
      ∃ target amount, s.token.mint target amount = .ok s'.token := by
  have heffect := hs.effect
  have henv := hs.outside
  obtain ⟨env, action⟩ := l
  cases heffect with
  | @line call t h =>
    obtain ⟨e, he⟩ := CreditLine.exec_effect hi.book h
    exact .inl (flow_pays he.valid henv.core hi.outsiders he.flow)
  | pool h => exact .inl (pool_pays hi.world henv.core h)
  | @transfer source target amount hauth h0 =>
    exact .inl (.one h0 (.authorised hauth (henv.core.outsider hauth)))
  | @mint target amount t h => exact .inr ⟨target, amount, h⟩
  | _ => exact .inl .rfl

/-! ## What the pool pays out -/

/-- The loan a payment is on, and its amount. -/
def Label.payment (l : Label) : Option (Nat × Int) :=
  match l.action with
  | .line (.repayLoan _ id amount) => some (id, amount)
  | .line (.repayInstallment _ id _ amount) => some (id, amount)
  | _ => none

/-- The step from `s` to `s'` makes the loan active, which was pending or not there. -/
structure Opens (s s' : State) (id : Nat) (loan : Loan) : Prop where
  stored : s'.line.book.loan id = some loan
  active : loan.status = .active
  before : ∀ old, s.line.book.loan id = some old → old.status = .pending

/-- What the step labelled `l` from `s` to `s'` takes out of the pool: the principal of
the loan it opens, the worth of the shares it burns, or the fees on the payment it
takes; a step that does none of these takes nothing. -/
inductive Outlay (n : Site) (l : Label) (s s' : State) : List Transfer → Prop
  | nothing : (∀ id loan, ¬Opens s s' id loan) → s.pool.totalShares ≤ s'.pool.totalShares →
      l.payment = none → Outlay n l s s' []
  | loan {id : Nat} {loan : Loan} : Opens s s' id loan →
      VendorRegistry.isActive s.registry loan.vendor = true →
      Outlay n l s s' (principalOut n.core loan)
  | shares {provider : Address} {shares : Int} : l.env.auths provider = true → 0 < shares →
      s'.pool.lpShares provider = s.pool.lpShares provider - shares →
      s'.pool.totalShares = s.pool.totalShares - shares →
      Outlay n l s s' [⟨n.core.pool, provider, worth s.pool.accounts shares⟩]
  | payment {id : Nat} {amount : Int} {loan : Loan} : l.payment = some (id, amount) →
      s.line.book.loan id = some loan → loan.status = .active →
      Outlay n l s s'
        (feesOut n.core s.pool (allocate (loan.accrued l.env.timestamp) amount).interestFeeLate)

/-- A loan active after an entry was active before, or the entry made it so. -/
theorem active_before {b : Book} {e : Event} {id : Nat} {loan : Loan} (hb : b.Sound)
    (hv : e.Valid b) (hissue : ∀ loan, e = .issue loan → loan.status ≠ .active)
    (hactivate : ∀ loan now, e ≠ .activate loan now) (hloan : (e.apply b).loan id = some loan)
    (hactive : loan.status = .active) : ∃ old, b.loan id = some old ∧ old.status = .active := by
  have hkeyed := (hv.sound hb).keyed id loan hloan
  rcases Event.loan_apply hloan with hr | hold
  · cases hv with
    | idle => cases hr
    | issue =>
      obtain rfl := Option.some.inj hr
      exact absurd hactive (hissue _ rfl)
    | activate => exact absurd rfl (hactivate _ _)
    | cancel =>
      obtain rfl := Option.some.inj hr
      cases hactive
    | accrue hold hbefore =>
      obtain rfl := Option.some.inj hr
      exact ⟨_, hkeyed ▸ hold, hbefore⟩
    | repay hold hbefore =>
      obtain rfl := Option.some.inj hr
      exact ⟨_, hkeyed ▸ hold, hbefore⟩
    | forfeit =>
      obtain rfl := Option.some.inj hr
      cases hactive
  · exact ⟨loan, hold, hactive⟩

theorem Opens.absurd {id : Nat} {loan : Loan} (h : Opens s s' id loan)
    (hbefore : ∃ old, s.line.book.loan id = some old ∧ old.status = .active) : False := by
  obtain ⟨old, hold, hactive⟩ := hbefore
  rw [h.before old hold] at hactive
  cases hactive

/-- The entries of the credit line pay the principal of the loan they open, or the fees
on the payment they record. -/
theorem entry_outlay {call : CreditLine.Call} {t : Protocol.State} {e : Event}
    (hb : s.line.book.Sound)
    (he : CreditLine.Effect (Protocol.clients n.core) env call (s.protocol n) t e)
    (hline : s'.line = t.line) (hshares : s'.pool.totalShares = s.pool.totalShares) :
    Outlay n ⟨env, .line call⟩ s s' (Event.outlays n.core env s.pool e) := by
  have hbook : s'.line.book = e.apply s.line.book := by
    rw [hline]
    exact he.book
  have hfresh : s.line.book.loan (s.line.book.counter + 1) = none := hb.filled.fresh
  have hsupply : s.pool.totalShares ≤ s'.pool.totalShares := Int.le_of_eq hshares.symm
  have hnone : (∀ loan, e = .issue loan → loan.status ≠ .active) →
      (∀ loan now, e ≠ .activate loan now) → ∀ id loan, ¬Opens s s' id loan := by
    intro hissue hactivate id loan hopens
    refine hopens.absurd (active_before hb he.valid hissue hactivate ?_ hopens.active)
    rw [← hbook]
    exact hopens.stored
  have hvalid := he.valid
  have hflow := he.flow
  cases he.records with
  | passive hpassive =>
    refine .nothing (hnone (by simp) (by simp)) hsupply ?_
    cases call <;> first
      | exact hpassive.elim
      | rfl
  | @createLoan r loan hissued hactive =>
    cases hvalid with
    | issue hid =>
      have hopens : Opens s s' loan.loanId loan := by
        refine ⟨?_, hactive, fun old hold => ?_⟩
        · rw [hbook]
          exact Function.update_self ..
        · rw [hid, show (s.protocol n).line = s.line from rfl, hfresh] at hold
          cases hold
      rw [Event.outlays, if_pos hactive]
      exact .loan hopens (Option.some.inj (validateVendor_ok hflow.vendor))
  | @requestLoan r loan hissued hpending =>
    have hne : loan.status ≠ .active := by simp [hpending]
    rw [Event.outlays, if_neg hne]
    refine .nothing (hnone ?_ (by simp)) hsupply rfl
    intro loan' h
    obtain rfl := Event.issue.inj h
    exact hne
  | approveLoan loan =>
    cases hvalid with
    | activate hold hpending =>
      have hopens : Opens s s' loan.loanId
          { loan with status := .active, fundedAt := env.timestamp } := by
        refine ⟨?_, rfl, fun old hbefore => ?_⟩
        · rw [hbook]
          exact Function.update_self ..
        · obtain rfl := Option.some.inj (hold.symm.trans hbefore)
          exact hpending
      -- The record is written with the same amounts.
      show Outlay n _ s s'
        (principalOut n.core { loan with status := .active, fundedAt := env.timestamp })
      exact .loan hopens (Option.some.inj (validateVendor_ok hflow.vendor))
  | repayLoan loan amount =>
    cases hvalid with
    | repay hold hactive => exact .payment rfl hold hactive
  | repayInstallment loan index amount =>
    cases hvalid with
    | repay hold hactive => exact .payment rfl hold hactive
  | _ =>
    exact .nothing (hnone (by simp) (by simp)) hsupply rfl

/-- A step that leaves the loans and takes no payment. -/
theorem Outlay.quiet (hline : s'.line = s.line)
    (hshares : s.pool.totalShares ≤ s'.pool.totalShares) (hpayment : l.payment = none) :
    Outlay n l s s' [] := by
  refine .nothing (fun id loan h => ?_) hshares hpayment
  have hstored := h.stored
  rw [hline] at hstored
  exact h.absurd ⟨loan, hstored, h.active⟩

theorem Step.outlays (hs : Step n s l s') (hi : Protocol.Invariant n.core (s.protocol n)) :
    ∃ xs, TakesOut n.core.pool xs s.token s'.token ∧ Outlay n l s s' xs := by
  have heffect := hs.effect
  have henv := hs.outside.core
  obtain ⟨env, action⟩ := l
  cases heffect with
  | @line call t h =>
    obtain ⟨e, he⟩ := CreditLine.exec_effect hi.book h
    exact ⟨_, flow_out he.valid henv hi.outsiders he.flow,
      entry_outlay hi.book he rfl (flow_shares he.flow).supply⟩
  | pool h =>
    obtain ⟨xs, hout, hburns⟩ := pool_out hi.world henv h
    refine ⟨xs, hout, ?_⟩
    cases hburns with
    | nothing hshares => exact .quiet rfl hshares rfl
    | shares hauth hpos hheld hsupply => exact .shares hauth hpos hheld hsupply
  | @transfer source target amount hauth =>
    have hne : source ≠ n.core.pool := by
      rintro rfl
      exact henv.outsider hauth (by simp [Deployment.contracts])
    exact ⟨[], .other hne, .quiet rfl (Int.le_refl _) rfl⟩
  | mint h =>
    obtain ⟨-, ht⟩ := Token.mint_ok.mp h
    exact ⟨[], .of_log (ht ▸ rfl), .quiet rfl (Int.le_refl _) rfl⟩
  | _ => exact ⟨[], .rfl, .quiet rfl (Int.le_refl _) rfl⟩

/-- In every run from deployment, all that ever left the pool is what its steps paid
out, each step in its turn: to an approved vendor the principal of the loan the step
opens, to a provider the worth of the shares the step burns, and to the recipients of
the fees their parts of the interest in the payment the step takes. -/
theorem pool_outlays (h : Run (Step n) s₀ tr s) (h0 : Deployed s₀) :
    ∃ paid : List (List Transfer), s.token.outflows n.core.pool = paid.flatten ∧
      List.Forall₂ (fun (y : State × Label) xs =>
        ∃ s', Step n y.1 y.2 s' ∧ Outlay n y.2 y.1 s' xs) tr paid := by
  induction h with
  | nil =>
    refine ⟨[], ?_, .nil⟩
    rw [Token.outflows, h0.log]
    rfl
  | @snoc tr t u l hr hs ih =>
    obtain ⟨paid, hpaid, hall⟩ := ih
    obtain ⟨xs, hout, hxs⟩ := hs.outlays (invariant_of_reachable (hr.reachable h0))
    refine ⟨paid ++ [xs], ?_, List.rel_append hall (.cons ⟨u, hs, hxs⟩ .nil)⟩
    rw [hout, hpaid, List.flatten_append, List.flatten_singleton]

/-- A loan, and its repayment with its interest. -/
theorem pool_outlays_sample : ∃ (tr : List (State × Label)) (s : State),
    s.token.outflows 2 = [⟨2, 30, 800⟩, ⟨2, 40, 7⟩, ⟨2, 41, 4⟩] ∧
    ∃ paid : List (List Transfer), s.token.outflows 2 = paid.flatten ∧
      List.Forall₂ (fun (y : State × Label) xs =>
        ∃ s', Step .sample y.1 y.2 s' ∧ Outlay .sample y.2 y.1 s' xs) tr paid := by
  have hreplay : (replay (take .sample) sampleStart
      (setUp ++ prepare ++ [openLoan 21, repay 21 1 1070])).toOption.map
      (fun r => r.2.token.outflows 2) = some [⟨2, 30, 800⟩, ⟨2, 40, 7⟩, ⟨2, 41, 4⟩] := by
    decide +kernel
  obtain ⟨tr, s, hr, hout⟩ := replay_observed hreplay
  have hrun : Run (Step .sample) sampleStart tr s := run_of_replay (by decide +kernel) hr
  exact ⟨tr, s, hout, pool_outlays hrun sampleStart_deployed⟩

/-! ## Accounts that authorise nothing -/

/-- Shares are bought and sold by their holder. -/
theorem pool_shares {d : Deployment} {active : Address → Option Bool}
    {call : LiquidityPool.Call} {q q' : LiquidityPool.State}
    (h : LiquidityPool.exec d active env call q = .ok q') (ha : env.auths a = false) :
    q'.pool.lpShares a = q.pool.lpShares a := by
  have hother : ∀ provider x, env.auths provider = true →
      Function.update q.pool.lpShares provider x a = q.pool.lpShares a := by
    intro provider x hprovider
    refine Function.update_of_ne ?_ _ _
    rintro rfl
    simp [ha] at hprovider
  cases call with
  | deposit provider amount =>
    obtain ⟨⟨k, s₁⟩, h₁, rfl⟩ := map_ok.mp h
    obtain ⟨price, -, hauth, -, -, -, -, -, rfl⟩ := LiquidityPool.deposit_spec h₁
    exact hother provider _ hauth
  | withdraw provider shares =>
    obtain ⟨⟨r, s₁⟩, h₁, rfl⟩ := map_ok.mp h
    obtain ⟨price, -, hauth, -, -, -, -, -, -, rfl⟩ := LiquidityPool.withdraw_spec h₁
    exact hother provider _ hauth
  | fundLoan =>
    obtain ⟨-, -, -, -, -, _, _, _, rfl⟩ := LiquidityPool.fundLoan_spec h
    rfl
  | receiveRepayment =>
    obtain ⟨-, -, -, -, -, -, rfl⟩ := LiquidityPool.receiveRepayment_spec h
    rfl
  | receiveGuarantee =>
    obtain ⟨-, -, -, -, -, -, -, -, -, -, rfl⟩ := LiquidityPool.receiveGuarantee_ok.mp h
    rfl
  | absorbLoss =>
    obtain ⟨-, -, -, -, -, -, -, rfl⟩ := LiquidityPool.absorbLoss_ok.mp h
    rfl
  | distributeInterest =>
    obtain ⟨-, -, -, -, -, rfl⟩ := LiquidityPool.distributeInterest_spec h
    rfl
  | accumulateInterest =>
    obtain ⟨-, -, -, -, -, rfl⟩ := LiquidityPool.distributeInterest_spec h
    rfl
  | _ =>
    have hkept := (LiquidityPool.exec_setter h trivial).2.accounts
    exact congrFun (congrArg LiquidityPool.Accounts.held hkept) a

/-- What was agreed when the loan was taken, and what is left of it but late fees. -/
structure Terms where
  borrower : Address
  vendor : Address
  total : Int
  guarantee : Int
  principal : Int
  interest : Int
  serviceFee : Int
  schedule : List RepaymentInstallment

def terms (loan : Loan) : Terms where
  borrower := loan.borrower
  vendor := loan.vendor
  total := loan.totalAmount
  guarantee := loan.guaranteeAmount
  principal := loan.principalOutstanding
  interest := loan.interestOutstanding
  serviceFee := loan.serviceFeeOutstanding
  schedule := loan.repaymentSchedule

/-- The loans of the borrower `a` in the second book were all in the first, on the
same terms. -/
def TermsKept (a : Address) (b b' : Book) : Prop :=
  ∀ id loan, b'.loan id = some loan → loan.borrower = a →
    ∃ old, b.loan id = some old ∧ terms loan = terms old

/-- An entry that the borrower has not authorised keeps the terms. -/
theorem entry_terms {W : Type} {c : Clients W} {call : CreditLine.Call} {e : Event}
    {t t' : CreditLine.State W} (hb : t.line.book.Sound) (he : CreditLine.Effect c env call t t' e)
    (ha : env.auths a = false) : TermsKept a t.line.book t'.line.book := by
  intro id loan hloan hborrower
  have hkeyed := (he.valid.sound hb).keyed id loan (he.book ▸ hloan)
  rw [he.book] at hloan
  rcases Event.loan_apply hloan with hr | hold
  · rw [← hkeyed]
    have hflow := he.flow
    cases he.valid with
    | idle => cases hr
    | issue =>
      obtain rfl := Option.some.inj hr
      have hauth := hflow.auth
      simp [hborrower, ha] at hauth
    | activate hold =>
      obtain rfl := Option.some.inj hr
      exact ⟨_, hold, rfl⟩
    | cancel hold =>
      obtain rfl := Option.some.inj hr
      exact ⟨_, hold, rfl⟩
    | accrue hold =>
      obtain rfl := Option.some.inj hr
      exact ⟨_, hold, rfl⟩
    | @repay old now amount schedule hold =>
      obtain rfl := Option.some.inj hr
      have hsigned : env.auths old.borrower = true := hflow.1
      have hsame : old.borrower = a := hborrower
      simp [hsame, ha] at hsigned
    | forfeit hold =>
      obtain rfl := Option.some.inj hr
      exact ⟨_, hold, rfl⟩
  · exact ⟨loan, hold, rfl⟩

/-- What a run leaves of the assets of an account. -/
structure Untouched (a : Address) (s s' : State) : Prop where
  tokens : s.token.balance a ≤ s'.token.balance a
  shares : s'.pool.lpShares a = s.pool.lpShares a
  loans : TermsKept a s.line.book s'.line.book

theorem Untouched.rfl : Untouched a s s :=
  ⟨Int.le_refl _, Eq.refl _, fun _ loan h _ => ⟨loan, h, Eq.refl _⟩⟩

theorem Untouched.trans {t : State} (h : Untouched a s t) (h' : Untouched a t s') :
    Untouched a s s' where
  tokens := Int.le_trans h.tokens h'.tokens
  shares := h'.shares.trans h.shares
  loans := by
    intro id loan hloan hborrower
    obtain ⟨mid, hmid, hterms⟩ := h'.loans id loan hloan hborrower
    have hsame : loan.borrower = mid.borrower := congrArg Terms.borrower hterms
    obtain ⟨old, hold, hterms'⟩ := h.loans id mid hmid (hsame ▸ hborrower)
    exact ⟨old, hold, hterms.trans hterms'⟩

theorem Step.untouched (hs : Step n s l s') (hi : Protocol.Invariant n.core (s.protocol n))
    (ho : a ∉ n.core.contracts) (ha : l.env.auths a = false) : Untouched a s s' := by
  have htokens : s.token.balance a ≤ s'.token.balance a := by
    rcases hs.pays hi with hpays | ⟨target, amount, hmint⟩
    · refine hpays.balance_le fun x hx hsource => ?_
      cases hx with
      | authorised hauth =>
        obtain rfl : _ = a := hsource
        simp [ha] at hauth
      | byCreditLine => exact ho (hsource ▸ n.core.creditLine_mem)
      | byPool => exact ho (hsource ▸ by simp [Deployment.contracts])
    · obtain ⟨h0, ht⟩ := Token.mint_ok.mp hmint
      rw [← ht]
      by_cases htarget : a = target
      · subst htarget
        simp only [Function.update_self]
        omega
      · simp only [Function.update_of_ne htarget, Int.le_refl]
  have heffect := hs.effect
  obtain ⟨env, action⟩ := l
  cases heffect with
  | @line call t h =>
    obtain ⟨e, he⟩ := CreditLine.exec_effect hi.book h
    exact ⟨htokens, congrFun (flow_shares he.flow).held a, entry_terms hi.book he ha⟩
  | pool h => exact ⟨htokens, pool_shares h ha, Untouched.rfl (s := s).loans⟩
  | _ => exact ⟨htokens, rfl, Untouched.rfl (s := s).loans⟩

/-- Over every run in which an outside account authorises nothing, the account loses
no tokens and no shares, and owes no loan it did not owe before, each on the terms
it had. -/
theorem untouched_without_consent (h : Run (Step n) s₀ tr s) (h0 : Reachable Deployed (Step n) s₀)
    (ho : a ∉ n.core.contracts) (ha : ∀ x ∈ tr, x.2.env.auths a = false) :
    Untouched a s₀ s := by
  induction h with
  | nil => exact .rfl
  | @snoc tr t u l hr hs ih =>
    rw [List.forall_mem_append, List.forall_mem_singleton] at ha
    have hreach : Reachable Deployed (Step n) t := h0.run hr
    exact (ih ha.1).trans (hs.untouched (invariant_of_reachable hreach) ho ha.2)

/-- The second borrower, while the first takes a loan and pays it off. -/
theorem untouched_without_consent_sample : ∃ s₀ s : State,
    s₀.token.balance 22 = 99800 ∧ Untouched 22 s₀ s := by
  have hbefore : (replay (take .sample) sampleStart
      (setUp ++ prepare ++ [openLoan 22])).toOption.map
      (fun r => (r.2.token.balance 22, (replay (take .sample) r.2
        [openLoan 21, repay 21 2 1070]).toOption.map fun q =>
          decide (∀ x ∈ q.1, x.2.env.auths 22 = false))) = some (99800, some true) := by
    decide +kernel
  obtain ⟨tr₀, s₀, hr₀, hobs⟩ := replay_observed hbefore
  obtain ⟨hbalance, hafter⟩ := Prod.mk.injEq .. ▸ hobs
  obtain ⟨tr, s, hr, hquiet⟩ := replay_observed hafter
  have hrun₀ : Run (Step .sample) sampleStart tr₀ s₀ := run_of_replay (by decide +kernel) hr₀
  have hrun : Run (Step .sample) s₀ tr s := run_of_replay (by decide +kernel) hr
  exact ⟨s₀, s, hbalance, untouched_without_consent hrun (hrun₀.reachable sampleStart_deployed)
    (by decide) (of_decide_eq_true hquiet)⟩

end StepFi.Network

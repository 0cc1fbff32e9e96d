import StepFi.Protocol.Locked

/-!
# Tokens held and counted nowhere

With no loan active the pool's balance should be its `total_liquidity`. The gap
between the two (`uncounted`) is opened by lending and closed by repaying, except
at a loan's end: a full repayment credits principal the guarantee had paid for,
and a default recovers no more than is locked. `nothing_stranded` shows that the
gap closes in every run that ends loans only by defaults on principal and lock of
at least the guarantee.
-/

namespace StepFi.Protocol

open Lib CreditLine

variable {d : Deployment} {s s' s₀ : State} {l : Label} {e : Event} {b : Book} {loan : Loan}
variable {tr : List (State × Label)}

/-- Every loan is pending, paid, defaulted or cancelled. -/
def NoneActive (s : State) : Prop :=
  ∀ id ∈ Finset.Icc 1 s.line.loanCounter, ∀ loan ∈ s.line.book.loan id, loan.status ≠ .active

/-- With no loan active the pool's balance is all counted for its providers, and
nothing is locked. -/
def NothingStranded (d : Deployment) (s : State) : Prop :=
  NoneActive s → s.world.token.balance d.pool = s.world.pool.totalLiquidity ∧
    s.world.pool.lockedLiquidity = 0

instance (s : State) : Decidable (NoneActive s) := by
  unfold NoneActive
  infer_instance

instance (d : Deployment) (s : State) : Decidable (NothingStranded d s) :=
  inferInstanceAs (Decidable (_ → _))

/-- The step ends no loan by a repayment, and a default finds both the principal
and the lock at no less than the guarantee. -/
def ClosesClean (s : State) (l : Label) : Prop :=
  OnRepayment (fun loan amount =>
    amount < loan.remainingBalance + lateFee l.env.timestamp loan) s l ∧
  OnDefault (fun loan => loan.guaranteeAmount ≤ loan.principalOutstanding ∧
    loan.guaranteeAmount ≤ s.world.pool.lockedLiquidity) s l

instance (s : State) (l : Label) : Decidable (ClosesClean s l) :=
  inferInstanceAs (Decidable (_ ∧ _))

/-- What the pool holds and lent at risk, beyond what it counts. -/
def uncounted (d : Deployment) (s : State) : Int :=
  s.world.token.balance d.pool - s.world.pool.totalLiquidity + atRisk s.line.book

/-- An active loan whose principal is below its guarantee. -/
def UnderGuarantee (loan : Loan) : Prop :=
  loan.status = .active ∧ loan.principalOutstanding < loan.guaranteeAmount

/-- Either a loan is open that a clean step can no longer close, or nothing is
uncounted. -/
def Settled (d : Deployment) (s : State) : Prop :=
  (∃ id loan, s.line.book.loan id = some loan ∧ UnderGuarantee loan) ∨ uncounted d s = 0

/-- A rewrite that keeps the loan it rewrites below its guarantee keeps one so. -/
theorem under_revise (new : Loan) (change : Int) {id : Nat} {u old : Loan}
    (hu : b.loan id = some u) (hunder : UnderGuarantee u) (hold : b.loan new.loanId = some old)
    (hnew : UnderGuarantee old → UnderGuarantee new) :
    ∃ id loan, (b.revise new change).loan id = some loan ∧ UnderGuarantee loan := by
  by_cases hid : id = new.loanId
  · subst hid
    obtain rfl := Option.some.inj (hold.symm.trans hu)
    exact ⟨new.loanId, new, Function.update_self .., hnew hunder⟩
  · exact ⟨id, u, (Function.update_of_ne hid ..).trans hu, hunder⟩

/-- A loan below its guarantee stays so: a clean entry does not close it. -/
theorem under_apply {id : Nat} {u : Loan} (hv : e.Valid b) (hs : b.Sound)
    (hu : b.loan id = some u) (hunder : UnderGuarantee u)
    (hrepay : ∀ loan now amount schedule, e = .repay loan now amount schedule →
      amount < (loan.accrued now).remainingBalance)
    (hforfeit : ∀ loan, e = .forfeit loan → loan.guaranteeAmount ≤ loan.principalOutstanding) :
    ∃ id loan, (e.apply b).loan id = some loan ∧ UnderGuarantee loan := by
  cases hv with
  | idle => exact ⟨id, u, hu, hunder⟩
  | @issue loan hid =>
    have hmem := Finset.mem_Icc.mp (hs.mem hu)
    have hne : id ≠ loan.loanId := by omega
    exact ⟨id, u, (Function.update_of_ne hne ..).trans hu, hunder⟩
  | @activate loan now hold hpending =>
    refine under_revise { loan with status := .active, fundedAt := now } _ hu hunder hold
      fun h => ?_
    exact absurd (hpending.symm.trans h.1) (by decide)
  | @cancel loan hold hpending =>
    refine under_revise { loan with status := .cancelled } _ hu hunder hold fun h => ?_
    exact absurd (hpending.symm.trans h.1) (by decide)
  | @accrue loan now hold => exact under_revise (loan.accrued now) _ hu hunder hold fun h => h
  | @repay loan now amount schedule hold hactive hfits hpos hle =>
    refine under_revise ((loan.accrued now).repaid amount schedule) _ hu hunder hold
      fun h => ⟨?_, ?_⟩
    · have hopen := hrepay loan now amount schedule rfl
      exact if_neg (by omega)
    · have ha := allocate_spec ((hs.loans _ _ hold).accrued hactive hfits) (Int.le_of_lt hpos) hle
      have hpaid := ha.principal.1
      have hless := h.2
      show loan.principalOutstanding - (allocate (loan.accrued now) amount).principalPaid
        < loan.guaranteeAmount
      omega
  | @forfeit loan hold =>
    -- A clean default is of a loan that still owes its guarantee.
    refine under_revise { loan with status := .defaulted } _ hu hunder hold fun h => ?_
    exact absurd (hforfeit loan rfl) (Int.not_le.mpr h.2)

theorem Turn.uncounted {provided x : Int} (ht : Turn d s l s' e provided x 0)
    (hi : Invariant d s) :
    Protocol.uncounted d s' = ((s.world.funds d).after e).cash - ((s.world.funds d).after e).total
      + (Protocol.atRisk s.line.book + Event.risked e) := by
  have hcash := congrArg Funds.cash ht.funds
  have htotal := congrArg Funds.total ht.funds
  simp only [Funds.stray, Funds.provide, World.funds] at hcash htotal
  rw [Protocol.uncounted, ht.atRisk hi, hcash, htotal]
  simp only [World.funds]
  omega

theorem Step.settled (h : Step d s l s') (hi : Invariant d s) (hu : Undisturbed d.pool s l)
    (hc : ClosesClean s l) (hp : Settled d s) : Settled d s' := by
  obtain ⟨e, provided, x, y, ht⟩ := h.turn hi
  obtain rfl := ht.cash_undisturbed hu
  obtain ⟨hrepay, hdefault⟩ := hc
  rw [ht.onRepayment] at hrepay
  rw [ht.onDefault] at hdefault
  have hopen : ∀ loan now amount schedule, e = .repay loan now amount schedule →
      amount < (loan.accrued now).remainingBalance := by
    rintro loan now amount schedule rfl
    rw [ht.now]
    exact hrepay
  have hbacked : ∀ loan, e = .forfeit loan → loan.guaranteeAmount ≤ loan.principalOutstanding := by
    rintro loan rfl
    exact hdefault.1
  rcases hp with ⟨id, u, hold, hunder⟩ | hzero
  · left
    rw [ht.book]
    exact under_apply ht.valid hi.book hold hunder hopen hbacked
  have hv := ht.uncounted hi
  have hcash : 0 ≤ (s.world.funds d).cash := hi.world.pool.safe.solvent d.pool
  have hgap : (s.world.funds d).cash - (s.world.funds d).total + atRisk s.line.book = 0 := hzero
  have hvalid := ht.valid
  cases hvalid with
  | @issue loan =>
    right
    simp only [Event.risked, Funds.after] at hv
    split at hv <;> simp only [Funds.lend, Funds.hold] at hv <;> omega
  | @repay loan now amount schedule hold hactive hfits hpos hle =>
    have hs := (hi.book.loans _ _ hold).accrued hactive hfits
    have ha := allocate_spec hs (Int.le_of_lt hpos) hle
    have hrest := hopen loan now amount schedule rfl
    -- The principal paid lowers what is at risk and raises the cash alike.
    have hm := exposure_active hactive
    have hpaid := ha.principal.1
    simp only [Event.risked, Funds.after] at hv
    rw [if_neg (by omega)] at hv
    simp only [Funds.repay] at hv
    by_cases hleft : loan.guaranteeAmount
        ≤ loan.principalOutstanding - (allocate (loan.accrued now) amount).principalPaid
    · right
      omega
    · -- The payment reaches below the guarantee: the loan stays open from now on.
      left
      refine ⟨loan.loanId, (loan.accrued now).repaid amount schedule, ?_, if_neg (by omega), ?_⟩
      · rw [ht.book]
        exact Function.update_self ..
      · exact Int.not_le.mp hleft
  | @forfeit loan hold hactive =>
    right
    obtain ⟨hg, hlock⟩ := hdefault
    have hlock' : loan.guaranteeAmount ≤ (s.world.funds d).locked := hlock
    have hm := exposure_active hactive
    have hle : exposure loan ≤ atRisk s.line.book := exposure_le hi.book hold
    have hpos := (hi.book.loans _ _ hold).guarantee_pos
    simp only [Event.risked, Funds.after, Funds.recover, Funds.absorb] at hv
    omega
  | _ =>
    right
    simp only [Event.risked, Funds.after, Funds.lend, Funds.release] at hv
    omega

theorem NoneActive.atRisk (h : NoneActive s) (hs : s.line.book.Sound) :
    Protocol.atRisk s.line.book = 0 := by
  rw [Protocol.atRisk, tally_eq_zero_iff (fun _ loan _ => exposure_nonneg loan) hs.filled]
  intro id loan hloan
  exact exposure_inactive (h id (hs.filled id loan hloan) loan hloan)

/-- No liquidity stays locked once no loan is active, whatever the run. -/
theorem NoneActive.unlocked (h : NoneActive s) (hr : Reachable Deployed (Step d) s) :
    s.world.pool.lockedLiquidity = 0 := by
  have hi := invariant_of_reachable hr
  have h0 : 0 ≤ s.world.pool.lockedLiquidity := hi.world.pool.accounts.locked_nonneg
  have hle := locked_le_atRisk hr
  have hrisk := h.atRisk hi.book
  omega

theorem Settled.nothingStranded (h : Settled d s) (hr : Reachable Deployed (Step d) s) :
    NothingStranded d s := by
  intro hnone
  have hi := invariant_of_reachable hr
  refine ⟨?_, hnone.unlocked hr⟩
  rcases h with ⟨id, loan, hloan, hactive, -⟩ | hzero
  · exact absurd hactive (hnone id (hi.book.filled id loan hloan) loan hloan)
  · have hrisk := hnone.atRisk hi.book
    simp only [uncounted] at hzero
    omega

theorem Deployed.settled (h : Deployed s) (hcash : s.world.token.balance d.pool = 0) :
    Settled d s := by
  right
  rw [uncounted, hcash, h.pool, h.line]
  rfl

/-- In a run from deployment whose steps send the pool nothing from elsewhere and
close loans cleanly, the pool's balance is its total liquidity and nothing is
locked in every state without an active loan. -/
theorem nothing_stranded (h : Run (Step d) s₀ tr s) (h0 : Deployed s₀)
    (hcash : s₀.world.token.balance d.pool = 0)
    (hsteps : ∀ x ∈ tr, Undisturbed d.pool x.1 x.2 ∧ ClosesClean x.1 x.2) :
    AllStates (NothingStranded d) tr s := by
  have hstates := h.states_of_steps
    (P := fun s => Settled d s ∧ Reachable Deployed (Step d) s)
    (C := fun s l => Undisturbed d.pool s l ∧ ClosesClean s l)
    h0 ⟨h0.settled hcash, .init h0⟩
    (fun _ _ _ hr hp hc hstep =>
      ⟨hstep.settled (invariant_of_reachable hr) hc.1 hc.2 hp.1, hr.step hstep⟩) hsteps
  exact hstates.imp fun s hs => hs.1.nothingStranded hs.2

/-- A loan of `1000` over `200` defaults with its principal and lock untouched. -/
theorem nothing_stranded_sample : ∃ (tr : List (State × Label)) (s : State),
    NoneActive s ∧ s.world.token.balance 2 = 9400 ∧ AllStates (NothingStranded .sample) tr s := by
  have hrun : (replay (take .sample) sampleStart
      (configure ++ [openLoan 21, default 1])).toOption.map
      (fun r => (decide (NoneActive r.2), r.2.world.token.balance 2,
        decide (∀ x ∈ r.1, Undisturbed 2 x.1 x.2 ∧ ClosesClean x.1 x.2)))
        = some (true, 9400, true) := by decide +kernel
  obtain ⟨tr, s, hr, hobs⟩ := replay_observed hrun
  simp only [Prod.mk.injEq] at hobs
  obtain ⟨hnone, hcash, hsteps⟩ := hobs
  have hrun : Run (Step .sample) sampleStart tr s := run_of_replay (by decide) hr
  exact ⟨tr, s, of_decide_eq_true hnone, hcash,
    nothing_stranded hrun sampleStart_deployed rfl (of_decide_eq_true hsteps)⟩

/-- The only loan is paid in full: the guarantee goes back to the borrower, and
the pool holds `10259` of which `10059` are counted. -/
theorem repayment_strands_guarantee : ¬∀ (tr : List (State × Label)) (s : State),
    Run (Step .sample) sampleStart tr s →
    (∀ x ∈ tr, Undisturbed Deployment.sample.pool x.1 x.2) → NothingStranded .sample s := by
  intro hall
  have hrun : (replay (take .sample) sampleStart
      (configure ++ [openLoan 21, repay 21 1 1070])).toOption.map
      (fun r => (decide (∀ x ∈ r.1, Undisturbed Deployment.sample.pool x.1 x.2),
        decide (NothingStranded .sample r.2))) = some (true, false) := by decide +kernel
  obtain ⟨tr, s, hr, hobs⟩ := replay_observed hrun
  obtain ⟨hsteps, hstranded⟩ := Prod.mk.injEq .. ▸ hobs
  exact of_decide_eq_false hstranded
    (hall tr s (run_of_replay (by decide) hr) (of_decide_eq_true hsteps))

end StepFi.Protocol

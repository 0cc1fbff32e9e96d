import StepFi.CreditLine.Runs

/-!
# Conservation of a loan's buckets

Over a run, what was repaid on a loan and what remains of it is what was agreed
and what accrued: the two sums are read off the record of the run (`repaidOn`,
`accruedOn`). A step lemma for entries in the book (`Event.Valid.conserved`)
carries the equation, and the labels of a run say what the entries moved.
-/

namespace StepFi.CreditLine

open Lib

/-- The principal, interest and service fee a borrower signed up to. -/
def Loan.agreed (loan : Loan) : Int :=
  loan.totalAmount + loan.interestAmount + loan.serviceFeeAmount

/-! ## What a run moved on a loan -/

section History

variable {W : Type}

/-- What a step repays on the loan `id`. -/
def repaidIn (id : Nat) : Label W → Int
  | .call _ (.repayLoan _ loanId amount) => if loanId = id then amount else 0
  | .call _ (.repayInstallment _ loanId _ amount) => if loanId = id then amount else 0
  | _ => 0

/-- The fee `accrue_late_fees_internal` returns for the stored loan. -/
def feeAt (env : Env) (p : Storage) (id : Nat) : Int :=
  match readLoan p id with
  | .ok loan => ((accrueLateFeesInternal env.timestamp loan).toOption.map (·.fee)).getD 0
  | .error _ => 0

/-- The late fee a step charges on the loan `id`. -/
def accruedIn (id : Nat) (s : State W) : Label W → Int
  | .call env (.repayLoan _ loanId _) => if loanId = id then feeAt env s.line id else 0
  | .call env (.repayInstallment _ loanId _ _) => if loanId = id then feeAt env s.line id else 0
  | .call env (.applyLateFees loanId) => if loanId = id then feeAt env s.line id else 0
  | _ => 0

/-- The sum of all amounts ever repaid on the loan `id`. -/
def repaidOn (id : Nat) (tr : List (State W × Label W)) : Int :=
  (tr.map fun x => repaidIn id x.2).sum

/-- The sum of all late fees ever accrued on the loan `id`. -/
def accruedOn (id : Nat) (tr : List (State W × Label W)) : Int :=
  (tr.map fun x => accruedIn id x.1 x.2).sum

end History

/-! ## What an entry moves -/

/-- What an entry repays on the loan `id`. -/
def Event.repays (id : Nat) : Event → Int
  | .repay loan _ amount _ => if loan.loanId = id then amount else 0
  | _ => 0

/-- What an entry charges on the loan `id`. -/
def Event.charges (id : Nat) : Event → Int
  | .accrue loan now => if loan.loanId = id then lateFee now loan else 0
  | .repay loan now _ _ => if loan.loanId = id then lateFee now loan else 0
  | _ => 0

/-- Repaid and remaining make up agreed and accrued, on every loan; an id not
yet given has no history. -/
def Book.Conserved (b : Book) (repaid accrued : Nat → Int) : Prop :=
  ∀ id, match b.loan id with
    | some loan => repaid id + loan.remainingBalance = loan.agreed + accrued id
    | none => repaid id = 0 ∧ accrued id = 0

variable {b : Book} {e : Event} {repaid accrued : Nat → Int}

/-- Revising one record keeps the equation on the others. -/
theorem Book.Conserved.revise (h : b.Conserved repaid accrued) {new old : Loan} {change : Int}
    {paid fee : Nat → Int} (hold : b.loan new.loanId = some old)
    (hother : ∀ id, id ≠ new.loanId → paid id = 0 ∧ fee id = 0)
    (hnew : paid new.loanId + (new.remainingBalance - old.remainingBalance)
      = (new.agreed - old.agreed) + fee new.loanId) :
    (b.revise new change).Conserved (fun id => repaid id + paid id)
      (fun id => accrued id + fee id) := by
  intro id
  by_cases hid : id = new.loanId
  · subst hid
    have hi := h new.loanId
    rw [hold] at hi
    simp only [Book.revise, Function.update_self]
    omega
  · have hi := h id
    obtain ⟨h1, h2⟩ := hother id hid
    simp only [Book.revise, Function.update_of_ne hid, h1, h2, Int.add_zero]
    exact hi

/-- Every valid entry keeps the equation. -/
theorem Event.Valid.conserved (hv : e.Valid b) (hs : b.Sound) (hc : b.Conserved repaid accrued)
    (hissue : ∀ loan, e = .issue loan → loan.remainingBalance = loan.agreed) :
    (e.apply b).Conserved (fun id => repaid id + e.repays id)
      (fun id => accrued id + e.charges id) := by
  cases hv with
  | idle =>
    intro id
    simp only [Event.apply, Event.repays, Event.charges, Int.add_zero]
    exact hc id
  | @issue loan hid hnew =>
    intro id
    simp only [Event.apply, Book.revise, Event.repays, Event.charges, Int.add_zero]
    by_cases hi : id = loan.loanId
    · subst hi
      -- Nothing was repaid or accrued before the loan was there.
      have hnone := hc loan.loanId
      rw [hid, hs.filled.fresh] at hnone
      have hagreed := hissue loan rfl
      rw [Function.update_self, hid, hnone.1, hnone.2]
      show 0 + loan.remainingBalance = loan.agreed + 0
      omega
    · rw [Function.update_of_ne hi]
      exact hc id
  | @activate loan now hold =>
    refine hc.revise hold (fun _ _ => ⟨rfl, rfl⟩) ?_
    simp [Event.repays, Event.charges, Loan.agreed]
  | @cancel loan hold =>
    refine hc.revise hold (fun _ _ => ⟨rfl, rfl⟩) ?_
    simp [Event.repays, Event.charges, Loan.agreed]
  | @forfeit loan hold =>
    refine hc.revise hold (fun _ _ => ⟨rfl, rfl⟩) ?_
    simp [Event.repays, Event.charges, Loan.agreed]
  | @accrue loan now hold =>
    refine hc.revise hold (fun id hid => ⟨rfl, if_neg fun h => hid h.symm⟩) ?_
    simp only [Event.repays, Event.charges, Loan.agreed, Loan.accrued, Loan.charged, if_true]
    omega
  | @repay loan now amount schedule hold =>
    refine hc.revise hold (fun id hid => ⟨if_neg fun h => hid h.symm, if_neg fun h => hid h.symm⟩)
      ?_
    simp only [Event.repays, Event.charges, Loan.agreed, Loan.accrued, Loan.charged, Loan.repaid,
      Loan.paidDown, if_true]
    omega

/-! ## The labels of a run say what its entries moved -/

variable {W : Type} {c : Clients W} {env : Env} {call : Call} {s s' : State W}
variable {tr : List (State W × Label W)}

theorem feeAt_eq {loan : Loan} (hb : s.line.book.Sound)
    (hloan : s.line.book.loan loan.loanId = some loan) (hfits : AccrualFits env.timestamp loan) :
    feeAt env s.line loan.loanId = lateFee env.timestamp loan := by
  have haccrue := (accrue_ok (hb.loans _ _ hloan) env.timestamp_lt).mpr ⟨hfits, rfl⟩
  simp [feeAt, readLoan_ok.mpr hloan, haccrue, Except.toOption]

theorem Effect.repaidIn_eq (he : Effect c env call s s' e) (id : Nat) :
    repaidIn id (.call env call : Label W) = e.repays id := by
  cases he.records with
  | passive hpassive => cases call <;> first | rfl | exact hpassive.elim
  | _ => rfl

theorem Effect.accruedIn_eq (he : Effect c env call s s' e) (hb : s.line.book.Sound) (id : Nat) :
    accruedIn id s (.call env call) = e.charges id := by
  have hfee : ∀ loan : Loan, s.line.book.loan loan.loanId = some loan →
      AccrualFits env.timestamp loan →
      (if loan.loanId = id then feeAt env s.line id else 0)
        = if loan.loanId = id then lateFee env.timestamp loan else 0 := by
    intro loan hloan hfits
    split
    · rename_i h
      rw [← h, feeAt_eq hb hloan hfits]
    · rfl
  have hvalid := he.valid
  cases he.records with
  | passive hpassive => cases call <;> first | rfl | exact hpassive.elim
  | applyLateFees loan =>
    cases hvalid with
    | accrue hloan _ hfits => exact hfee loan hloan hfits
  | repayLoan loan amount =>
    cases hvalid with
    | repay hloan _ hfits => exact hfee loan hloan hfits
  | repayInstallment loan index amount =>
    cases hvalid with
    | repay hloan _ hfits => exact hfee loan hloan hfits
  | _ => rfl

theorem Loan.Issued.remaining {loan : Loan} {r : LoanRequest} {now : Nat}
    (h : loan.Issued r now) : loan.remainingBalance = loan.agreed := by
  have hbuckets := h.sound.buckets
  rw [h.principal, h.interest, h.serviceFee, h.lateFees] at hbuckets
  simp only [Loan.agreed]
  omega

theorem Effect.issue_agreed (he : Effect c env call s s' e) :
    ∀ loan, e = .issue loan → loan.remainingBalance = loan.agreed := by
  rintro loan rfl
  cases he.records with
  | createLoan hissued => exact hissued.remaining
  | requestLoan hissued => exact hissued.remaining

theorem Run.conserved {s₀ : State W} (h : Run (Step c) s₀ tr s) (h0 : Deployed s₀) :
    s.line.book.Sound ∧
      s.line.book.Conserved (fun id => repaidOn id tr) (fun id => accruedOn id tr) := by
  refine h.history (P := fun tr s => s.line.book.Sound ∧
      s.line.book.Conserved (fun id => repaidOn id tr) (fun id => accruedOn id tr)) ?_ ?_
  · rw [h0]
    exact ⟨Book.Sound.empty, fun _ => ⟨rfl, rfl⟩⟩
  · rintro tr t l u ⟨hb, hc⟩ hstep
    refine ⟨Step.sound hb hstep, ?_⟩
    have hrepaid : ∀ id, repaidOn id (tr ++ [(t, l)]) = repaidOn id tr + repaidIn id l := by
      simp [repaidOn]
    have haccrued : ∀ id, accruedOn id (tr ++ [(t, l)]) = accruedOn id tr + accruedIn id t l := by
      simp [accruedOn]
    simp only [hrepaid, haccrued]
    cases l with
    | call env call =>
      obtain ⟨e, he⟩ := exec_effect hb hstep
      simp only [he.repaidIn_eq, he.accruedIn_eq hb]
      rw [he.book]
      exact he.valid.conserved hb hc he.issue_agreed
    | world w =>
      cases hstep
      simpa only [repaidIn, accruedIn, Int.add_zero] using hc

/-- Bucket conservation: the four buckets of every stored loan make up its
balance and stay within the terms, what was repaid and what remains is what was
agreed and what accrued, and a loan is paid exactly when nothing remains. -/
theorem buckets_conserved {s₀ : State W} (h : Run (Step c) s₀ tr s) (h0 : Deployed s₀)
    {id : Nat} {loan : Loan} (hloan : readLoan s.line id = .ok loan) :
    loan.remainingBalance = loan.principalOutstanding + loan.interestOutstanding
      + loan.serviceFeeOutstanding + loan.lateFeesOutstanding ∧
    (0 ≤ loan.principalOutstanding ∧ loan.principalOutstanding ≤ loan.totalAmount) ∧
    (0 ≤ loan.interestOutstanding ∧ loan.interestOutstanding ≤ loan.interestAmount) ∧
    (0 ≤ loan.serviceFeeOutstanding ∧ loan.serviceFeeOutstanding ≤ loan.serviceFeeAmount) ∧
    0 ≤ loan.lateFeesOutstanding ∧
    repaidOn id tr + loan.remainingBalance
      = loan.totalAmount + loan.interestAmount + loan.serviceFeeAmount + accruedOn id tr ∧
    (loan.status = .paid ↔ loan.remainingBalance = 0) := by
  obtain ⟨hb, hc⟩ := Run.conserved h h0
  have hstored := readLoan_ok.mp hloan
  have hs := hb.loans id loan hstored
  have heq := hc id
  rw [hstored] at heq
  exact ⟨hs.buckets, ⟨hs.principal_nonneg, hs.principal_le⟩, ⟨hs.interest_nonneg, hs.interest_le⟩,
    ⟨hs.serviceFee_nonneg, hs.serviceFee_le⟩, hs.lateFees_nonneg, heq, hs.paid_iff⟩

theorem buckets_conserved_sample : ∃ (tr : List (State Unit × Label Unit)) (s : State Unit)
    (loan : Loan), readLoan s.line 1 = .ok loan ∧ repaidOn 1 tr = 300 ∧ accruedOn 1 tr = 7 ∧
      repaidOn 1 tr + loan.remainingBalance
        = loan.totalAmount + loan.interestAmount + loan.serviceFeeAmount + accruedOn 1 tr := by
  have hrun : (replay (take .granting) sampleStart sampleLabels).toOption.map
      (fun r => (r.2.line.book.loan 1 |>.isSome, repaidOn 1 r.1, accruedOn 1 r.1))
        = some (true, 300, 7) := by decide +kernel
  obtain ⟨tr, s, hr, hobs⟩ := replay_observed hrun
  simp only [Prod.mk.injEq] at hobs
  obtain ⟨hsome, hpaid, hfee⟩ := hobs
  obtain ⟨loan, hloan⟩ := Option.isSome_iff_exists.mp hsome
  have hrun' : Run (Step .granting) sampleStart tr s := Run.of_replay (fun _ _ _ _ h => h) hr
  have hread : readLoan s.line 1 = .ok loan := readLoan_ok.mpr hloan
  exact ⟨tr, s, loan, hread, hpaid, hfee, (buckets_conserved hrun' rfl hread).2.2.2.2.2.1⟩

end StepFi.CreditLine

import StepFi.CreditLine.Loans
import StepFi.Lib.Register

/-!
# The loan book

What the credit line is for, apart from tokens: a register of loans and each
borrower's active debt. `Event` lists the entries a call can make, `Event.apply`
what an entry does to the book, and `Book.Sound` is what every valid entry
keeps: the ids are `1..counter`, every record is sound, and the debt is the sum
of the active balances.
-/

namespace StepFi.CreditLine

open Lib

structure Book where
  counter : Nat
  loan : Nat → Option Loan
  debt : Address → Int

def Storage.book (p : Storage) : Book where
  counter := p.loanCounter
  loan := fun id => p.loans (loanShard id) id
  debt := p.userActiveDebt

/-- The loan after late fees accrued at `now`. -/
def Loan.accrued (now : Nat) (loan : Loan) : Loan :=
  loan.charged (lateFee now loan) (nextCursor now loan)

/-- The terms a borrower asked for, on a new record. -/
structure Loan.Issued (loan : Loan) (r : LoanRequest) (now : Nat) : Prop where
  sound : loan.Sound
  borrower : loan.borrower = r.user
  vendor : loan.vendor = r.vendor
  total : loan.totalAmount = r.totalAmount
  guarantee : loan.guaranteeAmount = r.guaranteeAmount
  schedule : loan.repaymentSchedule = r.repaymentSchedule
  createdAt : loan.createdAt = now
  principal : loan.principalOutstanding = loan.totalAmount
  interest : loan.interestOutstanding = loan.interestAmount
  serviceFee : loan.serviceFeeOutstanding = loan.serviceFeeAmount
  lateFees : loan.lateFeesOutstanding = 0
  cursor : loan.lateFeeAccrualTimestamp = 0

/-- An entry in the book; `loan` is the record before it, and a new record for
`issue`. -/
inductive Event where
  | idle
  | issue (loan : Loan)
  | activate (loan : Loan) (now : Nat)
  | cancel (loan : Loan)
  | accrue (loan : Loan) (now : Nat)
  | repay (loan : Loan) (now : Nat) (amount : Int) (schedule : List RepaymentInstallment)
  | forfeit (loan : Loan)

namespace Book

/-- Write a record, and change its borrower's debt. -/
def revise (b : Book) (loan : Loan) (change : Int) : Book :=
  { b with
    loan := Function.update b.loan loan.loanId (some loan)
    debt := Function.update b.debt loan.borrower (b.debt loan.borrower + change) }

/-- What a loan adds to the active debt of `borrower`. -/
def owed (borrower : Address) (loan : Loan) : Int :=
  if loan.borrower = borrower ∧ loan.status = .active then loan.remainingBalance else 0

/-- The sum of the balances of `borrower`'s active loans. -/
def activeDebt (b : Book) (borrower : Address) : Int := tally b.counter b.loan (owed borrower)

structure Sound (b : Book) : Prop where
  filled : Filled b.counter b.loan
  keyed : ∀ id loan, b.loan id = some loan → loan.loanId = id
  loans : ∀ id loan, b.loan id = some loan → loan.Sound
  debt : ∀ borrower, b.debt borrower = b.activeDebt borrower

end Book

namespace Event

def apply (b : Book) : Event → Book
  | idle => b
  | issue loan =>
    { b.revise loan (if loan.status = .active then loan.remainingBalance else 0) with
      counter := b.counter + 1 }
  | activate loan now => b.revise { loan with status := .active, fundedAt := now }
      loan.remainingBalance
  | cancel loan => b.revise { loan with status := .cancelled } 0
  | accrue loan now => b.revise (loan.accrued now) (lateFee now loan)
  | repay loan now amount schedule =>
    b.revise ((loan.accrued now).repaid amount schedule) (lateFee now loan - amount)
  | forfeit loan => b.revise { loan with status := .defaulted } (-loan.remainingBalance)

theorem apply_issue_active {b : Book} {loan : Loan} (h : loan.status = .active) :
    (issue loan).apply b
      = { b.revise loan loan.remainingBalance with counter := b.counter + 1 } := by
  simp only [apply, if_pos h]

theorem apply_issue_pending {b : Book} {loan : Loan} (h : loan.status = .pending) :
    (issue loan).apply b = { b.revise loan 0 with counter := b.counter + 1 } := by
  have hne : ¬loan.status = .active := by simp [h]
  simp only [apply, if_neg hne]

/-- The record an entry writes. -/
def record : Event → Option Loan
  | idle => none
  | issue loan => some loan
  | activate loan now => some { loan with status := .active, fundedAt := now }
  | cancel loan => some { loan with status := .cancelled }
  | accrue loan now => some (loan.accrued now)
  | repay loan now amount schedule => some ((loan.accrued now).repaid amount schedule)
  | forfeit loan => some { loan with status := .defaulted }

/-- What an entry changes in a sum of `w` over the book. -/
def change (w : Loan → Int) : Event → Int
  | idle => 0
  | issue loan => w loan
  | activate loan now => w { loan with status := .active, fundedAt := now } - w loan
  | cancel loan => w { loan with status := .cancelled } - w loan
  | accrue loan now => w (loan.accrued now) - w loan
  | repay loan now amount schedule => w ((loan.accrued now).repaid amount schedule) - w loan
  | forfeit loan => w { loan with status := .defaulted } - w loan

/-- The entries the credit line can make in a book. -/
inductive Valid (b : Book) : Event → Prop
  | idle : Valid b .idle
  | issue {loan : Loan} : loan.loanId = b.counter + 1 → loan.Sound →
      loan.status = .active ∨ loan.status = .pending → Valid b (.issue loan)
  | activate {loan : Loan} {now : Nat} : b.loan loan.loanId = some loan →
      loan.status = .pending → Valid b (.activate loan now)
  | cancel {loan : Loan} : b.loan loan.loanId = some loan → loan.status = .pending →
      Valid b (.cancel loan)
  | accrue {loan : Loan} {now : Nat} : b.loan loan.loanId = some loan → loan.status = .active →
      AccrualFits now loan → Valid b (.accrue loan now)
  | repay {loan : Loan} {now : Nat} {amount : Int} {schedule : List RepaymentInstallment} :
      b.loan loan.loanId = some loan → loan.status = .active → AccrualFits now loan →
      0 < amount → amount ≤ (loan.accrued now).remainingBalance →
      Valid b (.repay loan now amount schedule)
  | forfeit {loan : Loan} : b.loan loan.loanId = some loan → loan.status = .active →
      Valid b (.forfeit loan)

end Event

/-! ## Soundness of the book -/

variable {b : Book} {loan old new : Loan} {now : Nat} {change : Int} {borrower : Address}

theorem Loan.Sound.accrued (hs : loan.Sound) (hstatus : loan.status = .active)
    (hfits : AccrualFits now loan) : (loan.accrued now).Sound :=
  hs.charged hstatus (lateFee_nonneg hs.remaining_nonneg) hfits.2 _

theorem Loan.Sound.status (hs : loan.Sound) (hstatus : loan.status ≠ .paid)
    {status : LoanStatus} (hnew : status ≠ .paid) (now : Nat) :
    Loan.Sound { loan with status := status, fundedAt := now } :=
  ⟨hs.guarantee_pos, hs.guarantee_le, hs.total_fits, hs.buckets, hs.principal_nonneg,
    hs.interest_nonneg, hs.serviceFee_nonneg, hs.lateFees_nonneg, hs.principal_le, hs.interest_le,
    hs.serviceFee_le, hs.remaining_fits, fun _ => hs.owes hstatus, fun h => absurd h hnew⟩

namespace Book

theorem Sound.mem (hs : b.Sound) {id : Nat} (h : b.loan id = some loan) :
    id ∈ Finset.Icc 1 b.counter := hs.filled id loan h

/-- Any sum over the book after a record was revised. -/
theorem tally_revise (hs : b.Sound) (hold : b.loan new.loanId = some old) (w : Loan → Int) :
    tally (b.revise new change).counter (b.revise new change).loan w
      = tally b.counter b.loan w - w old + w new :=
  tally_set (hs.mem hold) hold

/-- Any sum over the book after a new record. -/
theorem tally_issue (hid : new.loanId = b.counter + 1) (w : Loan → Int) :
    tally (b.counter + 1) (b.revise new change).loan w = tally b.counter b.loan w + w new := by
  simp only [revise, hid]
  exact tally_push

theorem debt_revise (b : Book) (new : Loan) (change : Int) (borrower : Address) :
    (b.revise new change).debt borrower
      = b.debt borrower + if new.borrower = borrower then change else 0 := by
  by_cases h : new.borrower = borrower
  · subst h
    simp [revise]
  · have : borrower ≠ new.borrower := fun e => h e.symm
    simp [revise, Function.update_of_ne this, h]

/-- Rewriting a record as it stands changes nothing. -/
theorem revise_self (h : b.loan loan.loanId = some loan) : b.revise loan 0 = b := by
  simp only [revise, Int.add_zero, Function.update_eq_self]
  rw [← h, Function.update_eq_self]

theorem loan_revise {id : Nat}
    (h : Function.update b.loan new.loanId (some new) id = some loan) :
    id = new.loanId ∧ loan = new ∨ id ≠ new.loanId ∧ b.loan id = some loan := by
  by_cases hid : id = new.loanId
  · subst hid
    rw [Function.update_self, Option.some.injEq] at h
    exact .inl ⟨rfl, h.symm⟩
  · rw [Function.update_of_ne hid] at h
    exact .inr ⟨hid, h⟩

/-- A record's weight in the debt, by status. -/
theorem owed_active (h : loan.status = .active) :
    owed borrower loan = if loan.borrower = borrower then loan.remainingBalance else 0 := by
  simp [owed, h]

theorem Sound.owed_nonneg (hs : b.Sound) (borrower : Address) :
    ∀ id loan, b.loan id = some loan → 0 ≤ owed borrower loan := by
  intro id loan h
  unfold owed
  split
  · exact (hs.loans id loan h).remaining_nonneg
  · exact Int.le_refl 0

/-- The debt covers the balance of each active loan. -/
theorem Sound.remaining_le_debt {id : Nat} (hs : b.Sound) (h : b.loan id = some loan)
    (hactive : loan.status = .active) : loan.remainingBalance ≤ b.debt loan.borrower := by
  have hle := le_tally (hs.owed_nonneg loan.borrower) (hs.mem h) h
  rwa [owed_active hactive, if_pos rfl, ← activeDebt, ← hs.debt] at hle

theorem Sound.revise (hs : b.Sound) (hold : b.loan new.loanId = some old)
    (hborrower : new.borrower = old.borrower) (hnew : new.Sound)
    (howed : (if new.status = .active then new.remainingBalance else 0)
      = (if old.status = .active then old.remainingBalance else 0) + change) :
    (b.revise new change).Sound where
  filled := hs.filled.set (hs.mem hold)
  keyed := by
    intro id loan h
    rcases loan_revise h with ⟨rfl, rfl⟩ | ⟨-, h⟩
    · rfl
    · exact hs.keyed id loan h
  loans := by
    intro id loan h
    rcases loan_revise h with ⟨-, rfl⟩ | ⟨-, h⟩
    · exact hnew
    · exact hs.loans id loan h
  debt := by
    intro borrower
    rw [activeDebt, tally_revise hs hold, debt_revise, hs.debt borrower, activeDebt]
    simp only [owed, hborrower] at howed ⊢
    by_cases hb : old.borrower = borrower
    · simp only [hb, true_and, if_true]
      omega
    · simp [hb]

theorem Sound.issue (hs : b.Sound) (hid : new.loanId = b.counter + 1) (hnew : new.Sound) :
    Sound { b.revise new (if new.status = .active then new.remainingBalance else 0) with
      counter := b.counter + 1 } where
  filled := by
    simp only [Book.revise, hid]
    exact hs.filled.push
  keyed := by
    intro id loan h
    rcases loan_revise h with ⟨rfl, rfl⟩ | ⟨-, h⟩
    · rfl
    · exact hs.keyed id loan h
  loans := by
    intro id loan h
    rcases loan_revise h with ⟨-, rfl⟩ | ⟨-, h⟩
    · exact hnew
    · exact hs.loans id loan h
  debt := by
    intro borrower
    rw [activeDebt, tally_issue hid, debt_revise, hs.debt borrower, activeDebt]
    by_cases hb : new.borrower = borrower <;> simp [owed, hb]

end Book

theorem Book.Sound.empty : Storage.empty.book.Sound where
  filled := fun _ _ h => by cases h
  keyed := fun _ _ h => by cases h
  loans := fun _ _ h => by cases h
  debt := fun _ => rfl

/-- Any sum over the book, after a valid entry. -/
theorem Event.Valid.tally_apply {e : Event} (hv : e.Valid b) (hs : b.Sound) (w : Loan → Int) :
    tally (e.apply b).counter (e.apply b).loan w = tally b.counter b.loan w + e.change w := by
  have hrevise : ∀ (old new : Loan) (change : Int), b.loan new.loanId = some old →
      tally (b.revise new change).counter (b.revise new change).loan w
        = tally b.counter b.loan w + (w new - w old) := by
    intro old new change hold
    rw [Book.tally_revise hs hold]
    omega
  cases hv with
  | idle => exact (Int.add_zero _).symm
  | @issue loan hid =>
    show tally (b.counter + 1) (b.revise loan 0).loan w = _
    exact Book.tally_issue hid w
  | activate hold => exact hrevise _ _ _ hold
  | cancel hold => exact hrevise _ _ _ hold
  | accrue hold => exact hrevise _ _ _ hold
  | repay hold => exact hrevise _ _ _ hold
  | forfeit hold => exact hrevise _ _ _ hold

/-- An entry other than an issue rewrites a record of the same borrower, which it
does not leave pending. -/
theorem Event.Valid.rewrites {e : Event} (hv : e.Valid b) (hr : e.record = some new) :
    e = .issue new ∨ ∃ old, b.loan new.loanId = some old ∧ old.borrower = new.borrower ∧
      new.status ≠ .pending := by
  cases hv with
  | idle => cases hr
  | issue =>
    obtain rfl := Option.some.inj hr
    exact .inl rfl
  | @activate loan now hold =>
    obtain rfl := Option.some.inj hr
    exact .inr ⟨loan, hold, rfl, by simp⟩
  | @cancel loan hold =>
    obtain rfl := Option.some.inj hr
    exact .inr ⟨loan, hold, rfl, by simp⟩
  | @accrue loan now hold hactive =>
    obtain rfl := Option.some.inj hr
    exact .inr ⟨loan, hold, rfl, by simp [Loan.accrued, Loan.charged, hactive]⟩
  | @repay loan now amount schedule hold =>
    obtain rfl := Option.some.inj hr
    refine .inr ⟨loan, hold, rfl, ?_⟩
    simp only [Loan.repaid]
    split <;> simp
  | @forfeit loan hold =>
    obtain rfl := Option.some.inj hr
    exact .inr ⟨loan, hold, rfl, by simp⟩

/-- After an entry a record is the one it wrote, or was there before. -/
theorem Event.loan_apply {e : Event} {id : Nat} (h : (e.apply b).loan id = some loan) :
    e.record = some loan ∨ b.loan id = some loan := by
  have hrevise : ∀ (new : Loan), Function.update b.loan new.loanId (some new) id = some loan →
      some new = some loan ∨ b.loan id = some loan := by
    intro new h
    rcases Book.loan_revise h with ⟨-, rfl⟩ | ⟨-, h⟩
    · exact .inl rfl
    · exact .inr h
  cases e with
  | idle => exact .inr h
  | _ => exact hrevise _ h

/-- Every valid entry keeps the book sound. -/
theorem Event.Valid.sound {e : Event} (hv : e.Valid b) (hs : b.Sound) : (e.apply b).Sound := by
  cases hv with
  | idle => exact hs
  | issue hid hnew => exact hs.issue hid hnew
  | activate hold hstatus =>
    have hloan := hs.loans _ _ hold
    refine hs.revise hold rfl (hloan.status (by simp [hstatus]) (by simp) _) ?_
    simp [hstatus]
  | @cancel loan hold hstatus =>
    have hloan := hs.loans _ _ hold
    refine hs.revise hold rfl (hloan.status (by simp [hstatus]) (by simp) loan.fundedAt) ?_
    simp [hstatus]
  | accrue hold hstatus hfits =>
    have hloan := (hs.loans _ _ hold).accrued hstatus hfits
    refine hs.revise hold rfl hloan ?_
    simp [Loan.accrued, Loan.charged, hstatus]
  | @repay loan now amount schedule hold hstatus hfits hpos hle =>
    have hloan := (hs.loans _ _ hold).accrued hstatus hfits
    refine hs.revise hold rfl (hloan.repaid hstatus hpos hle schedule) ?_
    have hbalance : (loan.accrued now).remainingBalance
        = loan.remainingBalance + lateFee now loan := rfl
    simp only [Loan.repaid, Loan.paidDown, hstatus, if_true]
    -- A loan paid in full no longer counts; else its debt falls by the payment.
    by_cases hfull : (loan.accrued now).remainingBalance = amount
    · simp only [hfull, if_true, reduceCtorEq, if_false]
      omega
    · simp only [hfull, if_false, if_true]
      omega
  | @forfeit loan hold hstatus =>
    have hloan := hs.loans _ _ hold
    refine hs.revise hold rfl (hloan.status (by simp [hstatus]) (by simp) loan.fundedAt) ?_
    simp [hstatus]

end StepFi.CreditLine

import StepFi.CreditLine.Conservation
import StepFi.CreditLine.Overdue
import StepFi.Lib.Meter

/-!
# Accrual over runs

A loan's late fees are a meter: it counts the complete days since the earliest
due date and is charged by whoever calls. `Metered` relates a record to the
meter's reading, `Metered.accrued` says that an accrual charges the meter, and
`Recount` what each step of a run does to the reading. What the meter library
knows then holds of the contract: no day is charged twice, and a fee charged
earlier is itself charged later.
-/

namespace StepFi.CreditLine

open Lib

variable {W : Type} {c : Clients W} {env : Env} {s s' : State W} {l : Label W}
variable {tr : List (State W × Label W)} {id base now : Nat} {old new loan : Loan} {m : Meter}

/-! ## A loan as a meter -/

/-- Complete days at `now` since the earliest due date, or since `base` if that
is later. -/
def daysFrom (base now : Nat) (schedule : List RepaymentInstallment) : Nat :=
  match overdueSince now schedule with
  | none => 0
  | some since => (now - max since base) / secondsPerDay

/-- The meter reads the balance, and the days from `base` on that the cursor has
passed. -/
structure Metered (base : Nat) (m : Meter) (loan : Loan) : Prop where
  balance : loan.remainingBalance = m.balance
  cursor : m.charged = 0 ∧ loan.lateFeeAccrualTimestamp = base ∨
    ∃ first, EarliestDue loan.repaymentSchedule first ∧ 0 < m.charged ∧
      loan.lateFeeAccrualTimestamp = max first base + m.charged * secondsPerDay

theorem Metered.start (loan : Loan) :
    Metered loan.lateFeeAccrualTimestamp ⟨loan.remainingBalance, 0⟩ loan :=
  ⟨rfl, .inl ⟨rfl, rfl⟩⟩

/-- Accrual starts where the meter stands. -/
theorem Metered.accrualStart (h : Metered base m loan) {since : Nat}
    (hsince : overdueSince now loan.repaymentSchedule = some since) :
    accrualStart loan since = max since base + m.charged * secondsPerDay := by
  rw [accrualStart_eq_max]
  rcases h.cursor with ⟨hzero, hcursor⟩ | ⟨first, hfirst, -, hcursor⟩
  · rw [hcursor, hzero]
    omega
  · obtain rfl : first = since := hfirst.unique (overdueSince_eq_some.mp hsince).1
    omega

theorem Metered.daysOverdue (h : Metered base m loan) :
    daysOverdue now loan = daysFrom base now loan.repaymentSchedule - m.charged := by
  cases hsince : overdueSince now loan.repaymentSchedule with
  | none => simp [CreditLine.daysOverdue, daysFrom, hsince]
  | some since =>
    simp only [CreditLine.daysOverdue, daysFrom, hsince]
    rw [h.accrualStart hsince, ← Nat.sub_sub, Nat.mul_comm, Nat.sub_mul_div]

theorem Metered.lateFee (h : Metered base m loan) : lateFee now loan =
    m.fee lateFeeBpsPerDay bpsDenominator (daysFrom base now loan.repaymentSchedule) := by
  rw [CreditLine.lateFee, Meter.fee, h.balance, h.daysOverdue]

theorem daysFrom_cursor (now : Nat) (loan : Loan) :
    daysFrom loan.lateFeeAccrualTimestamp now loan.repaymentSchedule = daysOverdue now loan :=
  ((Metered.start loan).daysOverdue.trans (Nat.sub_zero _)).symm

/-- A fee moves the cursor on from where accrual starts. -/
theorem accrued_cursor_of_fee {since : Nat}
    (hsince : overdueSince now loan.repaymentSchedule = some since)
    (hfee : CreditLine.lateFee now loan ≠ 0) : (loan.accrued now).lateFeeAccrualTimestamp =
      CreditLine.accrualStart loan since + CreditLine.daysOverdue now loan * secondsPerDay := by
  simp only [Loan.accrued, Loan.charged, nextCursor, hsince, hfee, if_false]

/-- An accrual is a charge of the meter. -/
theorem Metered.accrued (h : Metered base m loan) :
    Metered base
      (m.charge lateFeeBpsPerDay bpsDenominator (daysFrom base now loan.repaymentSchedule))
      (loan.accrued now) := by
  by_cases hfee : CreditLine.lateFee now loan = 0
  · have hsame : loan.accrued now = loan := charged_of_no_fee hfee
    rwa [hsame, Meter.charge_of_fee_eq_zero (h.lateFee ▸ hfee)]
  · have hfee' := hfee
    rw [h.lateFee] at hfee'
    have hlt := Meter.lt_of_fee hfee'
    constructor
    · rw [Meter.charge_balance, ← h.lateFee, ← h.balance]
      rfl
    · cases hsince : overdueSince now loan.repaymentSchedule with
      | none => simp [daysFrom, hsince] at hlt
      | some since =>
        refine .inr ⟨since, (overdueSince_eq_some.mp hsince).1, ?_, ?_⟩
        · rw [Meter.charge_charged hfee']
          omega
        · rw [accrued_cursor_of_fee hsince hfee, h.accrualStart hsince, Meter.charge_charged hfee',
            h.daysOverdue, Nat.add_assoc, ← Nat.add_mul, Nat.add_sub_cancel' (Nat.le_of_lt hlt)]

/-- Only the due dates of a schedule matter to the meter. -/
theorem overdueSince_congr {xs ys : List RepaymentInstallment}
    (h : ys.map (·.dueDate) = xs.map (·.dueDate)) : overdueSince now ys = overdueSince now xs := by
  rw [overdueSince_eq_min?, overdueSince_eq_min?, h]

theorem EarliestDue.congr {xs ys : List RepaymentInstallment} {first : Nat}
    (h : ys.map (·.dueDate) = xs.map (·.dueDate)) (hfirst : EarliestDue xs first) :
    EarliestDue ys first := by
  have hsince : overdueSince (first + 1) xs = some first :=
    overdueSince_eq_some.mpr ⟨hfirst, Nat.lt_succ_self _⟩
  rw [← overdueSince_congr h] at hsince
  exact (overdueSince_eq_some.mp hsince).1

/-- Another balance, or other installments due at the same times, leave the
cursor's side of the meter. -/
theorem Metered.congr (h : Metered base m old)
    (hdates : new.repaymentSchedule.map (·.dueDate) = old.repaymentSchedule.map (·.dueDate))
    (hcursor : new.lateFeeAccrualTimestamp = old.lateFeeAccrualTimestamp) :
    Metered base ⟨new.remainingBalance, m.charged⟩ new := by
  constructor
  · rfl
  · rw [hcursor]
    rcases h.cursor with hstart | ⟨first, hfirst, hpos, hcharged⟩
    · exact .inl hstart
    · exact .inr ⟨first, hfirst.congr hdates, hpos, hcharged⟩

/-! ## What a step does to the meter -/

/-- The time at which a step accrues late fees on the loan `id`. -/
def Label.accrualTime (id : Nat) : Label W → Option Nat
  | .call env (.applyLateFees loanId) => if loanId = id then some env.timestamp else none
  | .call env (.repayLoan _ loanId _) => if loanId = id then some env.timestamp else none
  | .call env (.repayInstallment _ loanId _ _) => if loanId = id then some env.timestamp else none
  | _ => none

/-- The record a step leaves of the loan `id`, as far as the meter goes. -/
inductive Recount (id : Nat) (old : Loan) (l : Label W) : Loan → Prop
  | still {new : Loan} : l.accrualTime id = none → repaidIn id l = 0 →
      new.repaymentSchedule = old.repaymentSchedule →
      new.lateFeeAccrualTimestamp = old.lateFeeAccrualTimestamp →
      new.remainingBalance = old.remainingBalance →
      new.lateFeesOutstanding = old.lateFeesOutstanding → Recount id old l new
  | accrue {now : Nat} : l.accrualTime id = some now → repaidIn id l = 0 →
      AccrualFits now old → Recount id old l (old.accrued now)
  | repay {now : Nat} {amount : Int} {schedule : List RepaymentInstallment} :
      l.accrualTime id = some now → repaidIn id l = amount → 0 < amount → AccrualFits now old →
      schedule.map (·.dueDate) = old.repaymentSchedule.map (·.dueDate) →
      Recount id old l ((old.accrued now).repaid amount schedule)

theorem repaidIn_of_no_accrual (h : l.accrualTime id = none) : repaidIn id l = 0 := by
  unfold Label.accrualTime at h
  unfold repaidIn
  split at h <;> simp_all

/-- Every step leaves a stored loan as `Recount` says. -/
theorem Step.recount (hb : s.line.book.Sound) (h : Step c s l s')
    (hold : s.line.book.loan id = some old) :
    ∃ new, s'.line.book.loan id = some new ∧ Recount id old l new := by
  cases htime : l.accrualTime id with
  | none =>
    have hpaid := repaidIn_of_no_accrual htime
    obtain ⟨new, hnew, hrev⟩ := Step.revision hb h hold
    refine ⟨new, hnew, ?_⟩
    cases hrev with
    | accrue => simp [Label.accrualTime] at htime
    | repay => simp [Label.accrualTime] at htime
    | repayInstallment => simp [Label.accrualTime] at htime
    | _ => exact .still htime hpaid rfl rfl rfl rfl
  | some now =>
    cases l with
    | world w => cases htime
    | call env call =>
      cases call with
      | applyLateFees loanId =>
        obtain ⟨rfl, rfl⟩ : loanId = id ∧ env.timestamp = now := by
          simpa [Label.accrualTime] using htime
        obtain ⟨loan, hloan, -, hfits, -, hline⟩ := applyLateFees_spec hb h
        obtain rfl : loan = old := Option.some.inj (hloan.symm.trans hold)
        refine ⟨_, ?_, .accrue htime rfl hfits⟩
        rcases hline with ⟨hline, hfee⟩ | hline
        · have hsame : loan.accrued env.timestamp = loan := charged_of_no_fee hfee
          rw [hline, hsame, hold]
        · have hid : loan.loanId = loanId := hb.keyed _ _ hold
          rw [hline, ← hid, book_setLoan]
          exact Function.update_self ..
      | repayLoan borrower loanId amount =>
        obtain ⟨rfl, rfl⟩ : loanId = id ∧ env.timestamp = now := by
          simpa [Label.accrualTime] using htime
        obtain ⟨⟨r, s₁⟩, h₁, rfl⟩ := map_ok.mp h
        obtain ⟨hfits, hpos, hrecord⟩ := settle_record hb hold h₁
        exact ⟨_, hrecord, .repay htime (if_pos rfl) hpos hfits rfl⟩
      | repayInstallment borrower loanId index amount =>
        obtain ⟨rfl, rfl⟩ : loanId = id ∧ env.timestamp = now := by
          simpa [Label.accrualTime] using htime
        obtain ⟨⟨r, s₁⟩, h₁, rfl⟩ := map_ok.mp h
        obtain ⟨hfits, hpos, hrecord⟩ := settle_record hb hold h₁
        exact ⟨_, hrecord, .repay htime (if_pos rfl) hpos hfits (markInstallment_dueDates ..)⟩
      | _ => cases htime

/-! ## Days charged -/

/-- The days an accrual at `now` charges: none if it charges no fee. -/
def chargedDays (now : Nat) (loan : Loan) : Nat :=
  match accrueLateFeesInternal now loan with
  | .ok accrued => if accrued.fee = 0 then 0 else daysOverdue now loan
  | .error _ => 0

/-- The days a step charges on the loan `id`. -/
def daysIn (id : Nat) (s : State W) (l : Label W) : Nat :=
  match l.accrualTime id, readLoan s.line id with
  | some now, .ok loan => chargedDays now loan
  | _, _ => 0

/-- The days ever charged on the loan `id`. -/
def daysOn (id : Nat) (tr : List (State W × Label W)) : Nat :=
  (tr.map fun x => daysIn id x.1 x.2).sum

/-- The times at which a run accrued late fees on the loan `id`. -/
def accrualTimes (id : Nat) (tr : List (State W × Label W)) : List Nat :=
  tr.filterMap fun x => x.2.accrualTime id

theorem daysOn_snoc : daysOn id (tr ++ [(s, l)]) = daysOn id tr + daysIn id s l := by
  simp [daysOn]

theorem accruedOn_snoc : accruedOn id (tr ++ [(s, l)]) = accruedOn id tr + accruedIn id s l := by
  simp [accruedOn]

theorem accrualTimes_snoc :
    accrualTimes id (tr ++ [(s, l)]) = accrualTimes id tr ++ (l.accrualTime id).toList := by
  simp only [accrualTimes, List.filterMap_append, List.filterMap_cons, List.filterMap_nil]
  cases l.accrualTime id <;> rfl

theorem moved_of_no_accrual (h : l.accrualTime id = none) :
    daysIn id s l = 0 ∧ accruedIn id s l = 0 := by
  constructor
  · simp [daysIn, h]
  · unfold Label.accrualTime at h
    unfold accruedIn
    split at h <;> simp_all

/-- Where no loan is stored nothing accrues. -/
theorem moved_of_no_loan (h : s.line.book.loan id = none) :
    daysIn id s l = 0 ∧ accruedIn id s l = 0 := by
  have hread : readLoan s.line id = .error (.creditLine .loanNotFound) := by
    have hnone : s.line.loans (loanShard id) id = none := h
    rw [readLoan, hnone]
    rfl
  constructor
  · simp [daysIn, hread]
  · unfold accruedIn
    split <;> simp [feeAt, hread]

theorem chargedDays_eq (hs : loan.Sound) (hnow : now < 2 ^ 64) (hfits : AccrualFits now loan) :
    chargedDays now loan = if lateFee now loan = 0 then 0 else daysOverdue now loan := by
  simp only [chargedDays, (accrue_ok hs hnow).mpr ⟨hfits, rfl⟩]

theorem accruedIn_of_accrual (h : l.accrualTime id = some now) :
    ∃ env : Env, env.timestamp = now ∧ accruedIn id s l = feeAt env s.line id := by
  cases l with
  | world w => cases h
  | call env call =>
    refine ⟨env, ?_⟩
    cases call with
    | applyLateFees loanId => simp_all [Label.accrualTime, accruedIn]
    | repayLoan borrower loanId amount => simp_all [Label.accrualTime, accruedIn]
    | repayInstallment borrower loanId index amount => simp_all [Label.accrualTime, accruedIn]
    | _ => cases h

/-- What an accrual moves. -/
theorem moved_of_accrual (hb : s.line.book.Sound) (hold : s.line.book.loan id = some old)
    (htime : l.accrualTime id = some now) (hfits : AccrualFits now old) :
    daysIn id s l = (if lateFee now old = 0 then 0 else daysOverdue now old) ∧
      accruedIn id s l = lateFee now old := by
  have hs := hb.loans _ _ hold
  have hread := readLoan_ok.mpr hold
  obtain rfl := hb.keyed _ _ hold
  obtain ⟨env, rfl, hfee⟩ := accruedIn_of_accrual (s := s) htime
  constructor
  · simp only [daysIn, htime, hread]
    exact chargedDays_eq hs env.timestamp_lt hfits
  · rw [hfee, feeAt_eq hb hold hfits]

/-- What an accrual moves, at the meter. -/
theorem Metered.charged_days (h : Metered base m loan) :
    (m.charge lateFeeBpsPerDay bpsDenominator (daysFrom base now loan.repaymentSchedule)).charged =
      m.charged + if CreditLine.lateFee now loan = 0 then 0
        else CreditLine.daysOverdue now loan := by
  rw [h.lateFee, h.daysOverdue]
  split
  · rename_i hfee
    rw [Meter.charge_of_fee_eq_zero hfee, Nat.add_zero]
  · rename_i hfee
    have := Meter.lt_of_fee hfee
    rw [Meter.charge_charged hfee]
    omega

/-- The cursor moves forward, and not past the present. -/
theorem accrued_cursor (now : Nat) (loan : Loan) :
    loan.lateFeeAccrualTimestamp ≤ (loan.accrued now).lateFeeAccrualTimestamp ∧
      ((loan.accrued now).lateFeeAccrualTimestamp = loan.lateFeeAccrualTimestamp ∨
        (loan.accrued now).lateFeeAccrualTimestamp ≤ now) := by
  by_cases hfee : lateFee now loan = 0
  · have hsame : loan.accrued now = loan := charged_of_no_fee hfee
    rw [hsame]
    exact ⟨Nat.le_refl _, .inl rfl⟩
  · have hdays : daysOverdue now loan ≠ 0 := fun h => hfee (lateFee_of_no_days h)
    cases hsince : overdueSince now loan.repaymentSchedule with
    | none => simp [daysOverdue, hsince] at hdays
    | some since =>
      have hstart := accrualStart_eq_max loan since
      rw [accrued_cursor_of_fee hsince hfee]
      constructor
      · omega
      · exact .inr (cursor_le hsince hdays)

/-- What a run has charged on a loan, and where that left the cursor. -/
structure Counted (id : Nat) (tr : List (State W × Label W)) (loan : Loan) : Prop where
  metered : Metered 0 ⟨loan.remainingBalance, daysOn id tr⟩ loan
  cursor_le : ∀ now, (∀ time ∈ accrualTimes id tr, time ≤ now) → loan.lateFeeAccrualTimestamp ≤ now
  free : daysOn id tr = 0 → accruedOn id tr = 0

/-- A step that does not accrue keeps the count of a record it does not recount. -/
theorem Counted.still (h : Counted id tr old) (htime : l.accrualTime id = none)
    (hdates : new.repaymentSchedule.map (·.dueDate) = old.repaymentSchedule.map (·.dueDate))
    (hcursor : new.lateFeeAccrualTimestamp = old.lateFeeAccrualTimestamp) :
    Counted id (tr ++ [(s, l)]) new := by
  obtain ⟨hdays, hfee⟩ := moved_of_no_accrual (s := s) htime
  constructor
  · rw [daysOn_snoc, hdays]
    exact h.metered.congr hdates hcursor
  · intro now hnow
    rw [accrualTimes_snoc, htime] at hnow
    rw [hcursor]
    exact h.cursor_le now (by simpa using hnow)
  · rw [daysOn_snoc, accruedOn_snoc, hdays, hfee, Int.add_zero]
    exact h.free

/-- An accrual adds the days it charges. -/
theorem Counted.accrual (h : Counted id tr old) (htime : l.accrualTime id = some now)
    (hdays : daysIn id s l = if lateFee now old = 0 then 0 else daysOverdue now old)
    (hfee : accruedIn id s l = lateFee now old)
    (hdates : new.repaymentSchedule.map (·.dueDate) = old.repaymentSchedule.map (·.dueDate))
    (hcursor : new.lateFeeAccrualTimestamp = (old.accrued now).lateFeeAccrualTimestamp) :
    Counted id (tr ++ [(s, l)]) new := by
  constructor
  · have hmeter := h.metered.accrued.congr hdates hcursor
    rw [h.metered.charged_days] at hmeter
    rwa [daysOn_snoc, hdays]
  · intro time htimes
    rw [accrualTimes_snoc, htime, List.forall_mem_append] at htimes
    obtain ⟨hbefore, hnow⟩ := htimes
    have hle := h.cursor_le time hbefore
    have hnow : now ≤ time := hnow now (List.mem_singleton_self now)
    rw [hcursor]
    rcases (accrued_cursor now old).2 with hsame | hmoved <;> omega
  · rw [daysOn_snoc, accruedOn_snoc, hdays, hfee]
    intro hzero
    obtain ⟨hbefore, hnone⟩ := Nat.add_eq_zero_iff.mp hzero
    have hfree : lateFee now old = 0 := by
      by_contra hne
      rw [if_neg hne] at hnone
      exact hne (lateFee_of_no_days hnone)
    rw [h.free hbefore, hfree, Int.add_zero]

theorem Recount.counted (hr : Recount id old l new) (h : Counted id tr old)
    (hb : s.line.book.Sound) (hold : s.line.book.loan id = some old) :
    Counted id (tr ++ [(s, l)]) new := by
  cases hr with
  | still htime _ hschedule hcursor => exact h.still htime (by rw [hschedule]) hcursor
  | accrue htime _ hfits =>
    obtain ⟨hdays, hfee⟩ := moved_of_accrual hb hold htime hfits
    exact h.accrual htime hdays hfee rfl rfl
  | repay htime _ _ hfits hdates =>
    obtain ⟨hdays, hfee⟩ := moved_of_accrual hb hold htime hfits
    exact h.accrual htime hdays hfee hdates rfl

/-- A new loan has no count. -/
theorem Counted.fresh {r : LoanRequest} (hissued : loan.Issued r now) (hdays : daysOn id tr = 0)
    (hfee : accruedOn id tr = 0) : Counted id tr loan := by
  constructor
  · rw [hdays]
    exact ⟨rfl, .inl ⟨rfl, hissued.cursor⟩⟩
  · intro time _
    rw [hissued.cursor]
    exact Nat.zero_le _
  · intro _
    exact hfee

/-- Every loan of a run is counted, and an id not yet given has no history. -/
theorem Run.counted {s₀ : State W} (h : Run (Step c) s₀ tr s) (h0 : Deployed s₀) (id : Nat) :
    s.line.book.Sound ∧ match s.line.book.loan id with
      | some loan => Counted id tr loan
      | none => daysOn id tr = 0 ∧ accruedOn id tr = 0 := by
  refine h.history (P := fun tr s => s.line.book.Sound ∧ match s.line.book.loan id with
      | some loan => Counted id tr loan
      | none => daysOn id tr = 0 ∧ accruedOn id tr = 0) ?_ ?_
  · rw [h0]
    exact ⟨Book.Sound.empty, rfl, rfl⟩
  · intro tr t l u hinv hstep
    obtain ⟨hb, hc⟩ := hinv
    refine ⟨Step.sound hb hstep, ?_⟩
    cases hold : t.line.book.loan id with
    | some old =>
      rw [hold] at hc
      obtain ⟨new, hnew, hr⟩ := Step.recount hb hstep hold
      rw [hnew]
      exact hr.counted hc hb hold
    | none =>
      rw [hold] at hc
      obtain ⟨hdays, hfee⟩ := hc
      obtain ⟨hdays', hfee'⟩ := moved_of_no_loan (l := l) hold
      have hzero : daysOn id (tr ++ [(t, l)]) = 0 := by rw [daysOn_snoc, hdays, hdays']
      have hzero' : accruedOn id (tr ++ [(t, l)]) = 0 := by
        rw [accruedOn_snoc, hfee, hfee', Int.add_zero]
      cases hnew : u.line.book.loan id with
      | none => exact ⟨hzero, hzero'⟩
      | some new =>
        obtain ⟨env, r, hissued, -⟩ := Step.issued hb hstep hold hnew
        exact .fresh hissued hzero hzero'

/-! ## A second accrual -/

/-- A smaller balance costs no more. -/
theorem lateFee_mono
    (hdates : new.repaymentSchedule.map (·.dueDate) = old.repaymentSchedule.map (·.dueDate))
    (hcursor : new.lateFeeAccrualTimestamp = old.lateFeeAccrualTimestamp)
    (hle : new.remainingBalance ≤ old.remainingBalance) : lateFee now new ≤ lateFee now old := by
  have hdays : daysFrom new.lateFeeAccrualTimestamp now new.repaymentSchedule =
      daysFrom old.lateFeeAccrualTimestamp now old.repaymentSchedule := by
    simp only [daysFrom, overdueSince_congr hdates, hcursor]
  rw [(Metered.start new).lateFee, (Metered.start old).lateFee, hdays]
  exact Meter.fee_mono (by decide) (by decide) rfl hle

theorem lateFee_accrued (now : Nat) (loan : Loan) : lateFee now (loan.accrued now) = 0 :=
  (Metered.start loan).accrued.lateFee.trans Meter.fee_charge

/-- After an accrual and any payment at `now` there is nothing left to charge. -/
theorem Recount.lateFee (hr : Recount id old l new) (htime : l.accrualTime id = some now)
    (hs : new.Sound) : lateFee now new = 0 := by
  cases hr with
  | still hnone =>
    rw [htime] at hnone
    cases hnone
  | accrue htime' =>
    obtain rfl := Option.some.inj (htime.symm.trans htime')
    exact lateFee_accrued now old
  | @repay _ amount schedule htime' _ hpos _ hdates =>
    obtain rfl := Option.some.inj (htime.symm.trans htime')
    have hless : ((old.accrued now).repaid amount schedule).remainingBalance ≤
        (old.accrued now).remainingBalance := by
      show (old.accrued now).remainingBalance - amount ≤ _
      omega
    have hle : CreditLine.lateFee now ((old.accrued now).repaid amount schedule) ≤
        CreditLine.lateFee now (old.accrued now) := lateFee_mono hdates rfl hless
    rw [lateFee_accrued] at hle
    exact Int.le_antisymm hle (lateFee_nonneg hs.remaining_nonneg)

theorem setLoan_setLoan {p : Storage} (h : new.loanId = old.loanId) :
    setLoan new (setLoan old p) = setLoan new p := by
  simp only [setLoan, h, Function.update_self, Function.update_idem]

theorem closeLoan_loanId {mark : List RepaymentInstallment → List RepaymentInstallment} :
    (closeLoan mark loan).loanId = loan.loanId := by
  unfold closeLoan
  split <;> rfl

section Overwrite

variable {β : Type} {p : Storage} {borrower : Address} {amount : Int}
variable {mark : List RepaymentInstallment → List RepaymentInstallment}

theorem enterNonReentrant_setLoan :
    enterNonReentrant (setLoan loan p) = (enterNonReentrant p).map (setLoan loan) :=
  bind_map fun _ => rfl

theorem decreaseUserActiveDebt_setLoan : decreaseUserActiveDebt borrower amount (setLoan loan p) =
    (decreaseUserActiveDebt borrower amount p).map (setLoan loan) :=
  bind_map fun _ => rfl

/-- A payment writes its record over whatever was stored of the loan. -/
theorem payment_overwrites (hstored : p.book.loan loan.loanId = some old)
    (rest : Waterfall → Storage → Except Failure β) :
    (do
      let line ← enterNonReentrant (setLoan loan p)
      let paid ← applyWaterfall loan amount
      let line ← decreaseUserActiveDebt borrower amount line
      let line ← writeLoan (closeLoan mark paid.loan) line
      rest paid line) =
    (do
      let line ← enterNonReentrant p
      let paid ← applyWaterfall loan amount
      let line ← decreaseUserActiveDebt borrower amount line
      let line ← writeLoan (closeLoan mark paid.loan) line
      rest paid line) := by
  rw [enterNonReentrant_setLoan, map_bind]
  refine bind_congr_ok fun q hq => ?_
  refine bind_congr_ok fun paid hpaid => ?_
  rw [decreaseUserActiveDebt_setLoan, map_bind]
  refine bind_congr_ok fun q' hq' => ?_
  obtain ⟨-, rfl⟩ := enterNonReentrant_ok.mp hq
  obtain ⟨-, rfl⟩ := decreaseUserActiveDebt_ok.mp hq'
  have hid : (closeLoan mark paid.loan).loanId = loan.loanId :=
    closeLoan_loanId.trans (applyWaterfall_keeps hpaid).1
  rw [← hid] at hstored
  have hrewritten : ∀ (q : Storage), q.book.loan = p.book.loan →
      writeLoan (closeLoan mark paid.loan) (setLoan loan q) =
        writeLoan (closeLoan mark paid.loan) q := by
    intro q hq
    have hnew : (setLoan loan q).book.loan (closeLoan mark paid.loan).loanId = some loan := by
      rw [book_setLoan, hid]
      exact Function.update_self ..
    rw [writeLoan_stored hnew, writeLoan_stored (hq ▸ hstored), setLoan_setLoan hid]
  exact congrArg (· >>= rest paid) (hrewritten _ rfl)

end Overwrite

/-- A repayment finds the same loan to pay whether its fees were applied just
before or not. -/
theorem settle_applyLateFees {env' : Env} {loanId : Nat} {borrower : Address} {amount : Int}
    {check : Loan → Except Failure Unit}
    {mark : List RepaymentInstallment → List RepaymentInstallment} (hb : s.line.book.Sound)
    (happly : applyLateFees env loanId s = .ok s') (htime : env'.timestamp = env.timestamp)
    (hcheck : ∀ now loan, check (Loan.accrued now loan) = check loan) :
    settle c env' borrower loanId amount check mark s' =
      settle c env' borrower loanId amount check mark s := by
  obtain ⟨loan, hloan, hactive, hfits, ⟨-, rfl⟩ | ⟨hfee, hdebt, rfl⟩⟩ :=
    (applyLateFees_ok hb).mp happly
  · rfl
  · have hs := hb.loans _ _ hloan
    have hs' := hs.accrued hactive hfits
    obtain rfl : loan.loanId = loanId := hb.keyed _ _ hloan
    rw [← htime] at hfits hfee hdebt hs' ⊢
    have hpos : 0 < lateFee env'.timestamp loan := by
      have h0 : 0 ≤ lateFee env'.timestamp loan := lateFee_nonneg hs.remaining_nonneg
      omega
    have haccrue : accrueLateFeesInternal env'.timestamp loan =
        .ok ⟨lateFee env'.timestamp loan, loan.accrued env'.timestamp⟩ :=
      (accrue_ok hs env'.timestamp_lt).mpr ⟨hfits, rfl⟩
    have hagain : accrueLateFeesInternal env'.timestamp (loan.accrued env'.timestamp) =
        .ok ⟨0, loan.accrued env'.timestamp⟩ :=
      (accrual_spares_iff hs' env'.timestamp_lt).mpr (lateFee_accrued ..)
    have hread : ∀ p, readLoan (setLoan (loan.accrued env'.timestamp) p) loan.loanId =
        .ok (loan.accrued env'.timestamp) := by
      intro p
      rw [readLoan_ok, book_setLoan]
      exact Function.update_self ..
    have hbooked : ∀ borrower, loan.borrower = borrower →
        addAccruedFee borrower (lateFee env'.timestamp loan) s.line =
          .ok (setUserActiveDebt loan.borrower
            (s.line.userActiveDebt loan.borrower + lateFee env'.timestamp loan) s.line) := by
      intro borrower hborrower
      subst hborrower
      exact (addAccruedFee_ok hpos.le).mpr ⟨fun _ => hdebt, rfl⟩
    unfold settle
    refine bind_congr_ok fun _ _ => ?_
    rw [readLoan_ok.mpr hloan, hread, ok_bind, ok_bind]
    refine bind_congr_ok fun _ hborrower => ?_
    refine bind_congr_ok fun _ _ => ?_
    rw [hcheck]
    refine bind_congr_ok fun _ _ => ?_
    rw [haccrue, hagain, ok_bind, ok_bind, hbooked borrower (ensure_ok.mp hborrower), ok_bind]
    simp only [addAccruedFee, Int.lt_irrefl, if_false, ok_bind]
    refine bind_congr_ok fun _ _ => ?_
    have hstored : (setUserActiveDebt loan.borrower
        (s.line.userActiveDebt loan.borrower + lateFee env'.timestamp loan)
        s.line).book.loan (loan.accrued env'.timestamp).loanId = some loan := hloan
    exact payment_overwrites hstored _

/-! ## No day is charged twice -/

theorem Recount.cursor_le (hr : Recount id old l new) :
    old.lateFeeAccrualTimestamp ≤ new.lateFeeAccrualTimestamp := by
  cases hr with
  | still _ _ _ hcursor => exact Nat.le_of_eq hcursor.symm
  | accrue => exact (accrued_cursor _ old).1
  | repay => exact (accrued_cursor _ old).1

theorem Run.cursor_le (hb : s.line.book.Sound) (h : Run (Step c) s tr s')
    (hold : s.line.book.loan id = some old) :
    s'.line.book.Sound ∧ ∃ new, s'.line.book.loan id = some new ∧
      old.lateFeeAccrualTimestamp ≤ new.lateFeeAccrualTimestamp := by
  induction h with
  | nil => exact ⟨hb, old, hold, Nat.le_refl _⟩
  | snoc _ hstep ih =>
    obtain ⟨ht, mid, hmid, hle⟩ := ih
    obtain ⟨new, hnew, hr⟩ := Step.recount ht hstep hmid
    exact ⟨Step.sound ht hstep, new, hnew, Nat.le_trans hle hr.cursor_le⟩

/-- A step's fee is `0.5 %` of the balance for each day it charges. -/
theorem accruedIn_eq_days (hb : s.line.book.Sound) (h : Step c s l s')
    (hold : s.line.book.loan id = some old) :
    accruedIn id s l
      = old.remainingBalance * lateFeeBpsPerDay * daysIn id s l / bpsDenominator := by
  obtain ⟨new, -, hr⟩ := Step.recount hb h hold
  have hmoved : ∀ {now : Nat}, l.accrualTime id = some now → AccrualFits now old →
      accruedIn id s l =
        old.remainingBalance * lateFeeBpsPerDay * daysIn id s l / bpsDenominator := by
    intro now htime hfits
    obtain ⟨hdays, hfee⟩ := moved_of_accrual hb hold htime hfits
    rw [hdays, hfee]
    split
    · rename_i hzero
      simp [hzero]
    · rfl
  cases hr with
  | still htime =>
    obtain ⟨hdays, hfee⟩ := moved_of_no_accrual (s := s) htime
    simp [hdays, hfee]
  | accrue htime _ hfits => exact hmoved htime hfits
  | repay htime _ _ hfits => exact hmoved htime hfits

/-- A step charges its fee by the day. The loan's cursor only moves forward and
not past the time of the accruals; once a fee was charged, it stands as many days
after the earliest due date as were charged in all, and these are at most the
complete days that have passed.
A second accrual at the same time charges nothing, and a repayment comes to the
same whether the fees were applied just before or not. -/
theorem no_day_charged_twice {s₀ : State W} (h : Run (Step c) s₀ tr s) (h0 : Deployed s₀)
    (hloan : readLoan s.line id = .ok loan) :
    (∀ l s', Step c s l s' → accruedIn id s l =
      loan.remainingBalance * lateFeeBpsPerDay * daysIn id s l / bpsDenominator) ∧
    (∀ now, (∀ time ∈ accrualTimes id tr, time ≤ now) → loan.lateFeeAccrualTimestamp ≤ now) ∧
    (∀ tr' t, Run (Step c) s tr' t → ∃ loan', readLoan t.line id = .ok loan' ∧
      loan.lateFeeAccrualTimestamp ≤ loan'.lateFeeAccrualTimestamp) ∧
    (accruedOn id tr ≠ 0 → ∃ first, EarliestDue loan.repaymentSchedule first ∧
      loan.lateFeeAccrualTimestamp = first + secondsPerDay * daysOn id tr) ∧
    (∀ first now, EarliestDue loan.repaymentSchedule first →
      (∀ time ∈ accrualTimes id tr, time ≤ now) → daysOn id tr ≤ (now - first) / secondsPerDay) ∧
    (∀ l s' now loan', Step c s l s' → l.accrualTime id = some now →
      readLoan s'.line id = .ok loan' → accrueLateFeesInternal now loan' = .ok ⟨0, loan'⟩) ∧
    (∀ env env' s', applyLateFees env id s = .ok s' → env'.timestamp = env.timestamp →
      (∀ borrower amount, repayLoan c env' borrower id amount s' =
        repayLoan c env' borrower id amount s) ∧
      ∀ borrower index amount, repayInstallment c env' borrower id index amount s' =
        repayInstallment c env' borrower id index amount s) := by
  have hold := readLoan_ok.mp hloan
  obtain ⟨hb, hcounted⟩ := Run.counted h h0 id
  rw [hold] at hcounted
  refine ⟨fun l s' hstep => accruedIn_eq_days hb hstep hold, hcounted.cursor_le, ?_, ?_, ?_, ?_, ?_⟩
  · intro tr' t hrun
    obtain ⟨-, new, hnew, hle⟩ := Run.cursor_le hb hrun hold
    exact ⟨new, readLoan_ok.mpr hnew, hle⟩
  · intro hfee
    rcases hcounted.metered.cursor with ⟨hzero, -⟩ | ⟨first, hfirst, -, hcursor⟩
    · exact absurd (hcounted.free hzero) hfee
    · refine ⟨first, hfirst, ?_⟩
      rw [hcursor, Nat.max_zero, Nat.mul_comm]
  · intro first now hfirst hnow
    have hle := hcounted.cursor_le now hnow
    rcases hcounted.metered.cursor with ⟨hzero, -⟩ | ⟨first', hfirst', -, hcursor⟩
    · exact Nat.le_trans (Nat.le_of_eq hzero) (Nat.zero_le _)
    · obtain rfl : first' = first := hfirst'.unique hfirst
      rw [hcursor, Nat.max_zero] at hle
      exact (Nat.le_div_iff_mul_le (by decide)).mpr (Nat.le_sub_of_add_le' hle)
  · intro l s' now loan' hstep htime hread
    have hb' := Step.sound hb hstep
    obtain ⟨new, hnew, hr⟩ := Step.recount hb hstep hold
    obtain rfl : new = loan' := Option.some.inj (hnew.symm.trans (readLoan_ok.mp hread))
    have hs := hb'.loans _ _ hnew
    obtain ⟨env, rfl, -⟩ := accruedIn_of_accrual (s := s) htime
    exact (accrual_spares_iff hs env.timestamp_lt).mpr (hr.lateFee htime hs)
  · intro env env' s' happly htime
    constructor
    · intro borrower amount
      exact settle_applyLateFees hb happly htime fun _ _ => rfl
    · intro borrower index amount
      exact settle_applyLateFees hb happly htime fun _ _ => rfl

/-- The borrower who is two days late: both are charged, once. -/
theorem no_day_charged_twice_sample : ∃ (tr : List (State Unit × Label Unit)) (s : State Unit)
    (loan : Loan) (first : Nat), readLoan s.line 1 = .ok loan ∧ accruedOn 1 tr = 7 ∧
      daysOn 1 tr = 2 ∧ EarliestDue loan.repaymentSchedule first ∧
      loan.lateFeeAccrualTimestamp = first + secondsPerDay * daysOn 1 tr := by
  have hrun : (replay (take .granting) sampleStart sampleLabels).toOption.map
      (fun r => ((readLoan r.2.line 1).toOption.map (·.loanId), accruedOn 1 r.1, daysOn 1 r.1)) =
      some (some 1, 7, 2) := by decide +kernel
  obtain ⟨tr, s, hr, hobs⟩ := replay_observed hrun
  simp only [Prod.mk.injEq] at hobs
  obtain ⟨hloan, hfee, hdays⟩ := hobs
  obtain ⟨loan, hread, -⟩ := toOption_map_some.mp hloan
  have hrun' : Run (Step .granting) sampleStart tr s := Run.of_replay (fun _ _ _ _ h => h) hr
  have hcharged : accruedOn 1 tr ≠ 0 := by
    rw [hfee]
    decide
  obtain ⟨first, hfirst, hcursor⟩ := (no_day_charged_twice hrun' rfl hread).2.2.2.1 hcharged
  exact ⟨tr, s, loan, first, hread, hfee, hdays, hfirst, hcursor⟩

end StepFi.CreditLine

import StepFi.CreditLine.Contract
import Mathlib.Algebra.Order.Ring.Int
import Mathlib.Order.Bounds.Basic

/-!
# A single loan

What accrual and the waterfall do to one loan, without the checked arithmetic:
`Loan.charged` and `Loan.paidDown`. `Loan.Sound` is what the record keeps
through both: the balance is the sum of its four buckets, no bucket is negative
or above what was agreed, and principal is left exactly while anything is.
-/

namespace StepFi.CreditLine

open Lib

@[simp] theorem addI128_ok {a b x : Int} :
    addI128 a b = .ok x ↔ I128.Fits (a + b) ∧ a + b = x := checkedI128_ok

@[simp] theorem subI128_ok {a b x : Int} :
    subI128 a b = .ok x ↔ I128.Fits (a - b) ∧ a - b = x := checkedI128_ok

@[simp] theorem mulI128_ok {a b x : Int} :
    mulI128 a b = .ok x ↔ I128.Fits (a * b) ∧ a * b = x := checkedI128_ok

@[simp] theorem divI128_ok {a b x : Int} :
    divI128 a b = .ok x ↔ b ≠ 0 ∧ I128.Fits (a.tdiv b) ∧ a.tdiv b = x := checkedDivI128_ok

@[simp] theorem addU64_ok {a b x : Nat} : addU64 a b = .ok x ↔ a + b < 2 ^ 64 ∧ a + b = x := by
  simp only [addU64, checkedU64_ok]
  omega

@[simp] theorem mulU64_ok {a b x : Nat} : mulU64 a b = .ok x ↔ a * b < 2 ^ 64 ∧ a * b = x := by
  simp only [mulU64, checkedU64_ok, ← Int.natCast_mul]
  omega

theorem subU64_ok {a b x : Nat} (h : a < 2 ^ 64) :
    subU64 a b = .ok x ↔ b ≤ a ∧ a - b = x := by
  simp only [subU64, checkedU64_ok]
  omega

/-- A loan record as the entry points leave it. -/
structure Loan.Sound (loan : Loan) : Prop where
  guarantee_pos : 0 < loan.guaranteeAmount
  guarantee_le : loan.guaranteeAmount ≤ loan.totalAmount
  total_fits : I128.Fits loan.totalAmount
  buckets : loan.remainingBalance = loan.principalOutstanding + loan.interestOutstanding
    + loan.serviceFeeOutstanding + loan.lateFeesOutstanding
  principal_nonneg : 0 ≤ loan.principalOutstanding
  interest_nonneg : 0 ≤ loan.interestOutstanding
  serviceFee_nonneg : 0 ≤ loan.serviceFeeOutstanding
  lateFees_nonneg : 0 ≤ loan.lateFeesOutstanding
  principal_le : loan.principalOutstanding ≤ loan.totalAmount
  interest_le : loan.interestOutstanding ≤ loan.interestAmount
  serviceFee_le : loan.serviceFeeOutstanding ≤ loan.serviceFeeAmount
  remaining_fits : I128.Fits loan.remainingBalance
  owes : loan.status ≠ .paid → 0 < loan.principalOutstanding
  settled : loan.status = .paid → loan.remainingBalance = 0

variable {loan : Loan} {now : Nat} {amount fee : Int}

theorem Loan.Sound.remaining_nonneg (h : loan.Sound) : 0 ≤ loan.remainingBalance := by
  have := h.buckets
  have := h.principal_nonneg
  have := h.interest_nonneg
  have := h.serviceFee_nonneg
  have := h.lateFees_nonneg
  omega

theorem Loan.Sound.lateFees_le (h : loan.Sound) :
    loan.lateFeesOutstanding ≤ loan.remainingBalance := by
  have := h.buckets
  have := h.principal_nonneg
  have := h.interest_nonneg
  have := h.serviceFee_nonneg
  omega

theorem Loan.Sound.paid_iff (h : loan.Sound) :
    loan.status = .paid ↔ loan.remainingBalance = 0 := by
  refine ⟨h.settled, fun h0 => ?_⟩
  by_contra hne
  have := h.owes hne
  have := h.buckets
  have := h.interest_nonneg
  have := h.serviceFee_nonneg
  have := h.lateFees_nonneg
  omega

/-! ## The earliest due date -/

theorem overdueSince_eq_min? (now : Nat) (schedule : List RepaymentInstallment) :
    overdueSince now schedule = ((schedule.map (·.dueDate)).filter (· < now)).min? := by
  -- the step of the fold: once a date has passed, it takes minima
  obtain ⟨f, hfold, hnone, hsome⟩ : ∃ f : Option Nat → RepaymentInstallment → Option Nat,
      overdueSince now schedule = schedule.foldl f none ∧
      (∀ i, f none i = if i.dueDate < now then some i.dueDate else none) ∧
      ∀ d i, f (some d) i = if i.dueDate < now then some (min d i.dueDate) else some d := by
    refine ⟨_, rfl, fun i => rfl, ?_⟩
    intro d i
    have hmin : (if i.dueDate < d then i.dueDate else d) = min d i.dueDate := by
      split <;> omega
    simp only [hmin]
  have hrest : ∀ (rest : List RepaymentInstallment) (d : Nat), rest.foldl f (some d) =
      some (((rest.map (·.dueDate)).filter (· < now)).foldl min d) := by
    intro rest
    induction rest with
    | nil => intro d; rfl
    | cons i rest ih =>
      intro d
      simp only [List.foldl_cons, List.map_cons, List.filter_cons, decide_eq_true_eq, hsome]
      by_cases hi : i.dueDate < now
      · rw [if_pos hi, if_pos hi, ih, List.foldl_cons]
      · rw [if_neg hi, if_neg hi, ih]
  rw [hfold]
  clear hfold
  induction schedule with
  | nil => rfl
  | cons i rest ih =>
    simp only [List.foldl_cons, List.map_cons, List.filter_cons, decide_eq_true_eq, hnone]
    by_cases hi : i.dueDate < now
    · rw [if_pos hi, if_pos hi, List.min?_cons', hrest]
    · rw [if_neg hi, if_neg hi, ih]

/-- The earliest due date of a schedule, passed or not. -/
def EarliestDue (schedule : List RepaymentInstallment) (d : Nat) : Prop :=
  IsLeast {x | ∃ i ∈ schedule, i.dueDate = x} d

/-- Accrual finds the earliest due date as soon as it has passed. -/
theorem overdueSince_eq_some {since : Nat} {schedule : List RepaymentInstallment} :
    overdueSince now schedule = some since ↔ EarliestDue schedule since ∧ since < now := by
  rw [overdueSince_eq_min?, List.min?_eq_some_iff]
  simp only [List.mem_filter, List.mem_map, decide_eq_true_eq, EarliestDue, IsLeast,
    mem_lowerBounds, Set.mem_ofPred_eq]
  constructor
  · rintro ⟨⟨hmem, hlt⟩, hmin⟩
    refine ⟨⟨hmem, ?_⟩, hlt⟩
    intro d hd
    by_cases hd' : d < now
    · exact hmin d ⟨hd, hd'⟩
    · omega
  · rintro ⟨⟨hmem, hmin⟩, hlt⟩
    exact ⟨⟨hmem, hlt⟩, fun d hd => hmin d hd.1⟩

theorem overdueSince_eq_none {schedule : List RepaymentInstallment} :
    overdueSince now schedule = none ↔ ∀ i ∈ schedule, now ≤ i.dueDate := by
  rw [overdueSince_eq_min?, List.min?_eq_none_iff, List.filter_eq_nil_iff]
  simp

theorem accrualStart_eq_max (loan : Loan) (since : Nat) :
    accrualStart loan since = max since loan.lateFeeAccrualTimestamp := by
  unfold accrualStart
  split
  · omega
  · split <;> omega

/-! ## Accrual -/

/-- Complete days since the accrual cursor. -/
def daysOverdue (now : Nat) (loan : Loan) : Nat :=
  match overdueSince now loan.repaymentSchedule with
  | none => 0
  | some since => (now - accrualStart loan since) / secondsPerDay

/-- The fee those days cost: `0.5 %` of the balance for each. -/
def lateFee (now : Nat) (loan : Loan) : Int :=
  loan.remainingBalance * lateFeeBpsPerDay * daysOverdue now loan / bpsDenominator

/-- The loan with `fee` charged and the cursor at `timestamp`. -/
def Loan.charged (loan : Loan) (fee : Int) (timestamp : Nat) : Loan :=
  { loan with
    lateFeeAccrualTimestamp := timestamp
    lateFeesOutstanding := loan.lateFeesOutstanding + fee
    remainingBalance := loan.remainingBalance + fee }

theorem Loan.charged_zero (loan : Loan) :
    loan.charged 0 loan.lateFeeAccrualTimestamp = loan := by
  simp only [charged, Int.add_zero]

theorem lateFee_nonneg (h : 0 ≤ loan.remainingBalance) : 0 ≤ lateFee now loan :=
  Int.ediv_nonneg (Int.mul_nonneg (Int.mul_nonneg h (by decide)) (Int.natCast_nonneg _))
    (by decide)

/-- Where the cursor stands after an accrual: it moves by complete days, and
only when they cost something. -/
def nextCursor (now : Nat) (loan : Loan) : Nat :=
  match overdueSince now loan.repaymentSchedule with
  | none => loan.lateFeeAccrualTimestamp
  | some since =>
    if lateFee now loan = 0 then loan.lateFeeAccrualTimestamp
    else accrualStart loan since + daysOverdue now loan * secondsPerDay

theorem lateFee_of_no_days (h : daysOverdue now loan = 0) : lateFee now loan = 0 := by
  simp [lateFee, h]

theorem nextCursor_of_no_fee (h : lateFee now loan = 0) :
    nextCursor now loan = loan.lateFeeAccrualTimestamp := by
  unfold nextCursor
  split
  · rfl
  · rw [if_pos h]

/-- Without a fee the accrual changes nothing. -/
theorem charged_of_no_fee (h : lateFee now loan = 0) :
    loan.charged (lateFee now loan) (nextCursor now loan) = loan := by
  rw [nextCursor_of_no_fee h, h, Loan.charged_zero]

/-- The amounts an accrual computes on the way to its fee fit. -/
def AccrualFits (now : Nat) (loan : Loan) : Prop :=
  I128.Fits (loan.remainingBalance * lateFeeBpsPerDay * daysOverdue now loan) ∧
    I128.Fits (loan.remainingBalance + lateFee now loan)

instance : Decidable (AccrualFits now loan) := inferInstanceAs (Decidable (_ ∧ _))

theorem accrualFits_of_no_days (hs : loan.Sound) (h : daysOverdue now loan = 0) :
    AccrualFits now loan := by
  refine ⟨?_, ?_⟩
  · rw [h, Int.natCast_zero, Int.mul_zero]
    decide
  · rw [lateFee_of_no_days h, Int.add_zero]
    exact hs.remaining_fits

theorem divI128_days {n : Nat} (h : n < 2 ^ 64) :
    divI128 n secondsPerDay = .ok (n / secondsPerDay : Nat) := by
  have hq : (n : Int).tdiv (secondsPerDay : Nat) = (n / secondsPerDay : Nat) := by
    rw [Int.tdiv_eq_ediv_of_nonneg (Int.natCast_nonneg _), Int.natCast_ediv]
  refine divI128_ok.mpr ⟨by decide, ?_, hq⟩
  rw [hq]
  exact I128.fits_natCast (Nat.lt_of_le_of_lt (Nat.div_le_self ..) h)

section Days

variable {since : Nat} (hsince : overdueSince now loan.repaymentSchedule = some since)
include hsince

theorem daysOverdue_eq :
    daysOverdue now loan = (now - accrualStart loan since) / secondsPerDay := by
  simp only [daysOverdue, hsince]

theorem accrualStart_lt (hdays : daysOverdue now loan ≠ 0) : accrualStart loan since < now := by
  by_contra hle
  rw [daysOverdue_eq hsince, Nat.sub_eq_zero_of_le (Nat.not_lt.mp hle), Nat.zero_div] at hdays
  exact hdays rfl

/-- The cursor never passes the present. -/
theorem cursor_le (hdays : daysOverdue now loan ≠ 0) :
    accrualStart loan since + daysOverdue now loan * secondsPerDay ≤ now := by
  have hlt := accrualStart_lt hsince hdays
  have hle := Nat.div_mul_le_self (now - accrualStart loan since) secondsPerDay
  rw [daysOverdue_eq hsince]
  omega

end Days

theorem divI128_fee (h0 : 0 ≤ loan.remainingBalance)
    (hfit : I128.Fits (loan.remainingBalance * lateFeeBpsPerDay * daysOverdue now loan)) :
    divI128 (loan.remainingBalance * lateFeeBpsPerDay * daysOverdue now loan) bpsDenominator
      = .ok (lateFee now loan) := by
  have hprod : 0 ≤ loan.remainingBalance * lateFeeBpsPerDay * daysOverdue now loan :=
    Int.mul_nonneg (Int.mul_nonneg h0 (by decide)) (Int.natCast_nonneg _)
  have hquot : (loan.remainingBalance * lateFeeBpsPerDay * daysOverdue now loan).tdiv
      bpsDenominator = lateFee now loan := Int.tdiv_eq_ediv_of_nonneg hprod
  refine divI128_ok.mpr ⟨by decide, ?_, hquot⟩
  rw [hquot]
  exact I128.fits_of_le hfit (lateFee_nonneg h0) (Int.ediv_le_self _ hprod)

/-- The computation once at least one complete day is overdue. -/
theorem accrue_days {since : Nat} {accrued : Accrual} (hs : loan.Sound) (hnow : now < 2 ^ 64)
    (hsince : overdueSince now loan.repaymentSchedule = some since)
    (hdays : daysOverdue now loan ≠ 0) :
    accrueLateFeesInternal now loan = .ok accrued ↔ AccrualFits now loan ∧
      accrued = ⟨lateFee now loan, loan.charged (lateFee now loan) (nextCursor now loan)⟩ := by
  have hlt := accrualStart_lt hsince hdays
  -- Times and days stay within their types: only the amounts can overflow.
  have hcursor := cursor_le hsince hdays
  have h0 := hs.remaining_nonneg
  have hfee0 : 0 ≤ lateFee now loan := lateFee_nonneg h0
  have hsecs : subU64 now (accrualStart loan since) = .ok (now - accrualStart loan since) :=
    (subU64_ok hnow).mpr ⟨by omega, rfl⟩
  have hdivd : divI128 (now - accrualStart loan since : Nat) (secondsPerDay : Nat)
      = .ok (daysOverdue now loan : Int) := by
    rw [daysOverdue_eq hsince]
    exact divI128_days (by omega)
  have hdays' : ¬(daysOverdue now loan : Int) = 0 := by omega
  simp only [accrueLateFeesInternal, hsince, Nat.not_le.mpr hlt, if_false, hsecs, hdivd, ok_bind,
    hdays']
  by_cases hfit : I128.Fits (loan.remainingBalance * lateFeeBpsPerDay * daysOverdue now loan)
  · have hscaled0 : 0 ≤ loan.remainingBalance * lateFeeBpsPerDay := Int.mul_nonneg h0 (by decide)
    have hscaled : I128.Fits (loan.remainingBalance * lateFeeBpsPerDay) :=
      I128.fits_of_le hfit hscaled0 (le_mul_of_one_le_right hscaled0 (by omega))
    rw [mulI128_ok.mpr ⟨hscaled, rfl⟩, ok_bind, mulI128_ok.mpr ⟨hfit, rfl⟩, ok_bind,
      divI128_fee h0 hfit]
    by_cases hfee : lateFee now loan = 0
    · -- The days cost nothing: the loan is returned as it was, its cursor too.
      simp only [Except.toOption, Option.getD_some, hfee, if_true, Except.ok.injEq]
      rw [nextCursor_of_no_fee hfee, Loan.charged_zero]
      have hfits : AccrualFits now loan := by
        refine ⟨hfit, ?_⟩
        rw [hfee, Int.add_zero]
        exact hs.remaining_fits
      exact ⟨fun h => ⟨hfits, h.symm⟩, fun h => h.2.symm⟩
    · simp only [Except.toOption, Option.getD_some, hfee, if_false, Int.toNat_natCast]
      rw [mulU64_ok.mpr ⟨by omega, rfl⟩, ok_bind, addU64_ok.mpr ⟨by omega, rfl⟩, ok_bind]
      have hcursor' : nextCursor now loan
          = accrualStart loan since + daysOverdue now loan * secondsPerDay := by
        simp only [nextCursor, hsince, hfee, if_false]
      have hlate : I128.Fits (loan.remainingBalance + lateFee now loan) →
          I128.Fits (loan.lateFeesOutstanding + lateFee now loan) := by
        intro hf
        have := hs.lateFees_nonneg
        have := hs.lateFees_le
        exact I128.fits_of_le hf (by omega) (by omega)
      simp only [bind_ok, pure_ok, addI128_ok, hcursor']
      constructor
      · rintro ⟨_, ⟨-, rfl⟩, _, ⟨hrem, rfl⟩, rfl⟩
        exact ⟨⟨hfit, hrem⟩, rfl⟩
      · rintro ⟨⟨-, hrem⟩, rfl⟩
        exact ⟨_, ⟨hlate hrem, rfl⟩, _, ⟨hrem, rfl⟩, rfl⟩
  · -- The product with the days overflows, and the computation stops there.
    have hno : ¬AccrualFits now loan := fun h => hfit h.1
    simp only [bind_ok, mulI128_ok, hno, false_and, iff_false]
    rintro ⟨_, ⟨-, rfl⟩, _, ⟨h, -⟩, -⟩
    exact hfit h

/-- Accrual succeeds exactly when its amounts fit, and then charges the late
fee. -/
theorem accrue_ok {accrued : Accrual} (hs : loan.Sound) (hnow : now < 2 ^ 64) :
    accrueLateFeesInternal now loan = .ok accrued ↔ AccrualFits now loan ∧
      accrued = ⟨lateFee now loan, loan.charged (lateFee now loan) (nextCursor now loan)⟩ := by
  by_cases hdays : daysOverdue now loan = 0
  · have hfee := lateFee_of_no_days hdays
    have hnone : accrueLateFeesInternal now loan = .ok ⟨0, loan⟩ := by
      cases hsince : overdueSince now loan.repaymentSchedule with
      | none => simp only [accrueLateFeesInternal, hsince]
      | some since =>
        simp only [daysOverdue, hsince] at hdays
        simp only [accrueLateFeesInternal, hsince]
        by_cases hle : now ≤ accrualStart loan since
        · rw [if_pos hle]
        · rw [if_neg hle, (subU64_ok hnow).mpr ⟨by omega, rfl⟩, ok_bind,
            divI128_days (by omega), ok_bind, hdays, if_pos (Int.natCast_zero)]
    rw [hnone, charged_of_no_fee hfee, hfee, Except.ok.injEq]
    exact ⟨fun h => ⟨accrualFits_of_no_days hs hdays, h.symm⟩, fun h => h.2.symm⟩
  · cases hsince : overdueSince now loan.repaymentSchedule with
    | none => simp [daysOverdue, hsince] at hdays
    | some since => exact accrue_days hs hnow hsince hdays

theorem Loan.Sound.charged (hs : loan.Sound) (hstatus : loan.status = .active)
    (hfee : 0 ≤ fee) (hfits : I128.Fits (loan.remainingBalance + fee)) (timestamp : Nat) :
    (loan.charged fee timestamp).Sound where
  guarantee_pos := hs.guarantee_pos
  guarantee_le := hs.guarantee_le
  total_fits := hs.total_fits
  buckets := by
    have := hs.buckets
    simp only [Loan.charged]
    omega
  principal_nonneg := hs.principal_nonneg
  interest_nonneg := hs.interest_nonneg
  serviceFee_nonneg := hs.serviceFee_nonneg
  lateFees_nonneg := Int.add_nonneg hs.lateFees_nonneg hfee
  principal_le := hs.principal_le
  interest_le := hs.interest_le
  serviceFee_le := hs.serviceFee_le
  remaining_fits := hfits
  owes := hs.owes
  settled := fun h => by simp [Loan.charged, hstatus] at h

/-! ## The waterfall -/

/-- How an amount falls through the four buckets. -/
def allocate (loan : Loan) (amount : Int) : RepaymentAllocation :=
  let lateFeePaid := min amount loan.lateFeesOutstanding
  let interestPaid := min (amount - lateFeePaid) loan.interestOutstanding
  let serviceFeePaid := min (amount - lateFeePaid - interestPaid) loan.serviceFeeOutstanding
  let principalPaid :=
    min (amount - lateFeePaid - interestPaid - serviceFeePaid) loan.principalOutstanding
  { lateFeePaid, interestPaid, serviceFeePaid, principalPaid }

/-- What the pool receives beside principal. -/
def RepaymentAllocation.interestFeeLate (a : RepaymentAllocation) : Int :=
  a.interestPaid + a.serviceFeePaid + a.lateFeePaid

/-- The loan after a payment of `amount`. -/
def Loan.paidDown (loan : Loan) (amount : Int) : Loan :=
  let a := allocate loan amount
  { loan with
    lateFeesOutstanding := loan.lateFeesOutstanding - a.lateFeePaid
    interestOutstanding := loan.interestOutstanding - a.interestPaid
    serviceFeeOutstanding := loan.serviceFeeOutstanding - a.serviceFeePaid
    principalOutstanding := loan.principalOutstanding - a.principalPaid
    remainingBalance := loan.remainingBalance - amount }

/-- An allocation within the balance: the parts are not negative, stay within
their buckets and use the amount up. -/
structure Allocated (loan : Loan) (amount : Int) (a : RepaymentAllocation) : Prop where
  lateFee : 0 ≤ a.lateFeePaid ∧ a.lateFeePaid ≤ loan.lateFeesOutstanding
  interest : 0 ≤ a.interestPaid ∧ a.interestPaid ≤ loan.interestOutstanding
  serviceFee : 0 ≤ a.serviceFeePaid ∧ a.serviceFeePaid ≤ loan.serviceFeeOutstanding
  principal : 0 ≤ a.principalPaid ∧ a.principalPaid ≤ loan.principalOutstanding
  total : a.lateFeePaid + a.interestPaid + a.serviceFeePaid + a.principalPaid = amount
  /-- Principal is reached only once the other buckets are empty. -/
  last : 0 < a.principalPaid → a.lateFeePaid = loan.lateFeesOutstanding ∧
    a.interestPaid = loan.interestOutstanding ∧ a.serviceFeePaid = loan.serviceFeeOutstanding

theorem allocate_spec (hs : loan.Sound) (h0 : 0 ≤ amount) (hle : amount ≤ loan.remainingBalance) :
    Allocated loan amount (allocate loan amount) := by
  have := hs.buckets
  have := hs.principal_nonneg
  have := hs.interest_nonneg
  have := hs.serviceFee_nonneg
  have := hs.lateFees_nonneg
  constructor <;> simp only [allocate] <;> omega

theorem Allocated.interestFeeLate {a : RepaymentAllocation} (h : Allocated loan amount a) :
    0 ≤ a.interestFeeLate ∧ a.principalPaid + a.interestFeeLate = amount := by
  obtain ⟨⟨hl, -⟩, ⟨hi, -⟩, ⟨hf, -⟩, -, htotal, -⟩ := h
  unfold RepaymentAllocation.interestFeeLate
  omega

/-- Principal is paid last: what is left of it is what is left of the balance,
up to what was there. -/
theorem Allocated.principal_left {a : RepaymentAllocation} (h : Allocated loan amount a)
    (hs : loan.Sound) :
    loan.principalOutstanding - a.principalPaid
      = min loan.principalOutstanding (loan.remainingBalance - amount) := by
  have hb := hs.buckets
  obtain ⟨⟨hl, hl'⟩, ⟨hi, hi'⟩, ⟨hf, hf'⟩, ⟨hp, hp'⟩, htotal, hlast⟩ := h
  rcases Int.lt_or_eq_of_le hp with hpos | hzero
  · obtain ⟨h1, h2, h3⟩ := hlast hpos
    omega
  · omega

/-- The bucket law alone: the balance is what the four buckets hold, none of them
negative. -/
structure Loan.Balanced (loan : Loan) : Prop where
  buckets : loan.remainingBalance = loan.lateFeesOutstanding + loan.interestOutstanding
    + loan.serviceFeeOutstanding + loan.principalOutstanding
  lateFees_nonneg : 0 ≤ loan.lateFeesOutstanding
  interest_nonneg : 0 ≤ loan.interestOutstanding
  serviceFee_nonneg : 0 ≤ loan.serviceFeeOutstanding
  principal_nonneg : 0 ≤ loan.principalOutstanding
  remaining_fits : I128.Fits loan.remainingBalance

theorem Loan.Sound.balanced (hs : loan.Sound) : loan.Balanced where
  buckets := by
    have := hs.buckets
    omega
  lateFees_nonneg := hs.lateFees_nonneg
  interest_nonneg := hs.interest_nonneg
  serviceFee_nonneg := hs.serviceFee_nonneg
  principal_nonneg := hs.principal_nonneg
  remaining_fits := hs.remaining_fits

theorem applyWaterfall_ok {paid : Waterfall} (hs : loan.Balanced) (h0 : 0 ≤ amount)
    (hle : amount ≤ loan.remainingBalance) :
    applyWaterfall loan amount = .ok paid ↔
      paid = ⟨allocate loan amount, loan.paidDown amount⟩ := by
  have hfits : ∀ x : Int, 0 ≤ x → x ≤ loan.remainingBalance → I128.Fits x :=
    fun x => I128.fits_of_le hs.remaining_fits
  have hb := hs.buckets
  have h1 := hs.principal_nonneg
  have h2 := hs.interest_nonneg
  have h3 := hs.serviceFee_nonneg
  have h4 := hs.lateFees_nonneg
  simp only [applyWaterfall, bind_ok, pure_ok, subI128_ok]
  constructor
  · rintro ⟨_, ⟨-, rfl⟩, _, ⟨-, rfl⟩, _, ⟨-, rfl⟩, _, ⟨-, rfl⟩, _, ⟨-, rfl⟩, _, ⟨-, rfl⟩, _,
      ⟨-, rfl⟩, _, ⟨-, rfl⟩, rfl⟩
    rfl
  · rintro rfl
    exact ⟨_, ⟨hfits _ (by omega) (by omega), rfl⟩, _, ⟨hfits _ (by omega) (by omega), rfl⟩, _,
      ⟨hfits _ (by omega) (by omega), rfl⟩, _, ⟨hfits _ (by omega) (by omega), rfl⟩, _,
      ⟨hfits _ (by omega) (by omega), rfl⟩, _, ⟨hfits _ (by omega) (by omega), rfl⟩, _,
      ⟨hfits _ (by omega) (by omega), rfl⟩, _, ⟨hfits _ (by omega) (by omega), rfl⟩, rfl⟩

/-- A payment leaves the loan's id and schedule as they are. -/
theorem applyWaterfall_keeps {paid : Waterfall} (h : applyWaterfall loan amount = .ok paid) :
    paid.loan.loanId = loan.loanId ∧ paid.loan.repaymentSchedule = loan.repaymentSchedule := by
  simp only [applyWaterfall, bind_ok, pure_ok] at h
  obtain ⟨_, -, _, -, _, -, _, -, _, -, _, -, _, -, _, -, rfl⟩ := h
  exact ⟨rfl, rfl⟩

/-- And so does accrual. -/
theorem accrue_keeps {accrued : Accrual} (h : accrueLateFeesInternal now loan = .ok accrued) :
    accrued.loan.loanId = loan.loanId ∧
      accrued.loan.repaymentSchedule = loan.repaymentSchedule := by
  unfold accrueLateFeesInternal at h
  split at h
  · cases h
    exact ⟨rfl, rfl⟩
  · dsimp only at h
    split at h
    · cases h
      exact ⟨rfl, rfl⟩
    · simp only [bind_ok] at h
      obtain ⟨_, -, _, -, h⟩ := h
      split at h
      · cases h
        exact ⟨rfl, rfl⟩
      · simp only [bind_ok] at h
        obtain ⟨_, -, _, -, h⟩ := h
        split at h
        · cases h
          exact ⟨rfl, rfl⟩
        · simp only [bind_ok, pure_ok] at h
          obtain ⟨_, -, _, -, _, -, _, -, rfl⟩ := h
          exact ⟨rfl, rfl⟩

/-- The record a payment leaves: paid down, its schedule as marked, and closed
when nothing remains. -/
def Loan.repaid (loan : Loan) (amount : Int) (schedule : List RepaymentInstallment) : Loan :=
  { loan.paidDown amount with
    repaymentSchedule := schedule
    status := if loan.remainingBalance = amount then .paid else .active }

theorem Loan.Sound.repaid (hs : loan.Sound) (hstatus : loan.status = .active) (h0 : 0 < amount)
    (hle : amount ≤ loan.remainingBalance) (schedule : List RepaymentInstallment) :
    (loan.repaid amount schedule).Sound := by
  obtain ⟨hl, hi, hf, hp, htotal, hlast⟩ := allocate_spec hs (Int.le_of_lt h0) hle
  have hb := hs.buckets
  have hprincipal := hs.principal_le
  have hinterest := hs.interest_le
  have hservice := hs.serviceFee_le
  have howes := hs.owes (by simp [hstatus])
  refine ⟨hs.guarantee_pos, hs.guarantee_le, hs.total_fits, ?_, ?_, ?_, ?_, ?_, ?_, ?_, ?_, ?_,
    ?_, ?_⟩ <;> simp only [Loan.repaid, Loan.paidDown]
  · omega
  · omega
  · omega
  · omega
  · omega
  · omega
  · omega
  · omega
  · exact I128.fits_of_le hs.remaining_fits (by omega) (by omega)
  · -- An unpaid rest includes principal: it is reached last.
    intro hne
    have hrest : loan.remainingBalance ≠ amount := fun h => hne (if_pos h)
    by_cases hq : 0 < (allocate loan amount).principalPaid
    · obtain ⟨h1, h2, h3⟩ := hlast hq
      omega
    · omega
  · intro hpaid
    by_contra hne
    rw [if_neg (by omega)] at hpaid
    cases hpaid

/-! ## Due dates -/

/-- Paying an installment moves no due date. -/
theorem markInstallment_dueDates (now index : Nat) (schedule : List RepaymentInstallment) :
    (markInstallment now index schedule).map (·.dueDate) = schedule.map (·.dueDate) := by
  refine List.ext_getElem? fun i => ?_
  simp only [markInstallment, List.getElem?_map, List.getElem?_modify]
  cases schedule[i]? with
  | none => rfl
  | some x =>
    simp only [Option.map_some]
    split <;> rfl

theorem lastDueDate_reschedule {schedule : List RepaymentInstallment}
    (h : schedule.map (·.dueDate) = loan.repaymentSchedule.map (·.dueDate)) :
    lastDueDate { loan with repaymentSchedule := schedule } = lastDueDate loan := by
  simp only [lastDueDate, ← List.getLast?_map, h]

end StepFi.CreditLine

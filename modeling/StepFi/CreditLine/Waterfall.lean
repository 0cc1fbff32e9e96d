import StepFi.CreditLine.Loans
import StepFi.Lib.Waterfall

/-!
# The repayment waterfall

`apply_waterfall` pours a payment through the loan's four buckets, in the order
late fees, interest, service fee, principal (`applyWaterfall_pours`). What the
library says of payments that fall through buckets is what a borrower can rely
on: a payment is used up, reaches a bucket only when those before it are empty,
and pays for the same however it is split (`waterfall_law`).
-/

namespace StepFi.CreditLine

open Lib

/-- The buckets of a loan, the first to be paid in front. -/
def Loan.owed (loan : Loan) : List Int :=
  [loan.lateFeesOutstanding, loan.interestOutstanding, loan.serviceFeeOutstanding,
    loan.principalOutstanding]

/-- What each bucket receives. -/
def RepaymentAllocation.parts (allocation : RepaymentAllocation) : List Int :=
  [allocation.lateFeePaid, allocation.interestPaid, allocation.serviceFeePaid,
    allocation.principalPaid]

variable {loan new : Loan} {a b amount : Int}

theorem allocate_parts (loan : Loan) (amount : Int) :
    (allocate loan amount).parts = Waterfall.poured amount loan.owed := rfl

theorem paidDown_owed (loan : Loan) (amount : Int) :
    (loan.paidDown amount).owed = Waterfall.left amount loan.owed := rfl

theorem Loan.Balanced.owed_nonneg (h : loan.Balanced) : Waterfall.Nonneg loan.owed := by
  simp only [Waterfall.Nonneg, Loan.owed, List.forall_mem_cons]
  exact ⟨h.lateFees_nonneg, h.interest_nonneg, h.serviceFee_nonneg, h.principal_nonneg, by simp⟩

theorem Loan.owed_sum (loan : Loan) : loan.owed.sum =
    loan.lateFeesOutstanding + loan.interestOutstanding + loan.serviceFeeOutstanding
      + loan.principalOutstanding := by
  simp only [Loan.owed, List.sum_cons, List.sum_nil]
  omega

theorem Loan.Balanced.owed_sum (h : loan.Balanced) : loan.owed.sum = loan.remainingBalance := by
  rw [Loan.owed_sum, h.buckets]

/-- A second payment goes on where the first one stopped. -/
theorem paidDown_paidDown (hb : 0 ≤ b) :
    (loan.paidDown a).paidDown b = loan.paidDown (a + b) := by
  have howed : ((loan.paidDown a).paidDown b).owed = (loan.paidDown (a + b)).owed := by
    simp only [paidDown_owed, Waterfall.left_add hb]
  simp only [Loan.owed, List.cons.injEq, and_true] at howed
  obtain ⟨hlate, hinterest, hservice, hprincipal⟩ := howed
  have hremaining : ((loan.paidDown a).paidDown b).remainingBalance =
      (loan.paidDown (a + b)).remainingBalance := Int.sub_sub ..
  exact (Loan.mk.injEq ..).mpr ⟨rfl, rfl, rfl, rfl, rfl, rfl, rfl, rfl, hprincipal, hinterest,
    hservice, hremaining, rfl, rfl, rfl, rfl, rfl, hlate, rfl⟩

theorem Loan.Balanced.paidDown (h : loan.Balanced) (ha : 0 ≤ a) (hle : a ≤ loan.remainingBalance) :
    (loan.paidDown a).Balanced := by
  have hsum : (loan.paidDown a).owed.sum = (loan.paidDown a).remainingBalance := by
    rw [paidDown_owed, Waterfall.left_sum, h.owed_sum,
      Waterfall.poured_sum h.owed_nonneg ha (h.owed_sum ▸ hle)]
    rfl
  have hleft : Waterfall.Nonneg (loan.paidDown a).owed := Waterfall.left_nonneg h.owed_nonneg
  simp only [Waterfall.Nonneg, Loan.owed, List.forall_mem_cons] at hleft
  obtain ⟨hlate, hinterest, hservice, hprincipal, -⟩ := hleft
  have hfits : I128.Fits (loan.remainingBalance - a) :=
    I128.fits_of_le h.remaining_fits (by omega) (by omega)
  exact ⟨hsum.symm.trans (Loan.owed_sum _), hlate, hinterest, hservice, hprincipal, hfits⟩

/-- A payment that is used up, bucket after bucket. -/
structure Falls (amount : Int) (paid : Waterfall) : Prop where
  nonneg : ∀ x ∈ paid.allocation.parts, 0 ≤ x
  total : paid.allocation.lateFeePaid + paid.allocation.interestPaid
    + paid.allocation.serviceFeePaid + paid.allocation.principalPaid = amount
  interest : paid.allocation.interestPaid ≠ 0 → paid.loan.lateFeesOutstanding = 0
  serviceFee : paid.allocation.serviceFeePaid ≠ 0 →
    paid.loan.lateFeesOutstanding = 0 ∧ paid.loan.interestOutstanding = 0
  principal : paid.allocation.principalPaid ≠ 0 →
    paid.loan.lateFeesOutstanding = 0 ∧ paid.loan.interestOutstanding = 0 ∧
      paid.loan.serviceFeeOutstanding = 0

theorem Loan.Balanced.falls (h : loan.Balanced) (ha : 0 ≤ a) (hle : a ≤ loan.remainingBalance) :
    Falls a ⟨allocate loan a, loan.paidDown a⟩ := by
  have hsum : (allocate loan a).parts.sum = a :=
    Waterfall.poured_sum h.owed_nonneg ha (h.owed_sum ▸ hle)
  have horder := Waterfall.poured_in_order (a := a) h.owed_nonneg
  rw [← allocate_parts, ← paidDown_owed] at horder
  simp only [RepaymentAllocation.parts, Loan.owed, List.zip_cons_cons, List.pairwise_cons,
    List.forall_mem_cons] at horder
  obtain ⟨⟨hlate₁, hlate₂, hlate₃, -⟩, ⟨hinterest₂, hinterest₃, -⟩, ⟨hservice₃, -⟩, -⟩ := horder
  constructor
  · exact Waterfall.poured_nonneg h.owed_nonneg ha
  · show (allocate loan a).lateFeePaid + (allocate loan a).interestPaid
      + (allocate loan a).serviceFeePaid + (allocate loan a).principalPaid = a
    simp only [RepaymentAllocation.parts, List.sum_cons, List.sum_nil] at hsum
    omega
  · exact hlate₁
  · exact fun htakes => ⟨hlate₂ htakes, hinterest₂ htakes⟩
  · exact fun htakes => ⟨hlate₃ htakes, hinterest₃ htakes, hservice₃ htakes⟩

/-- Every payment within the balance of a loan goes through, falls through the
buckets in order, and can be made in two parts: the loan left and what each bucket
received are the same. -/
theorem waterfall_law (h : loan.Balanced) (ha : 0 ≤ a) (hb : 0 ≤ b)
    (hab : a + b ≤ loan.remainingBalance) : ∃ first second whole : Waterfall,
    applyWaterfall loan a = .ok first ∧ Falls a first ∧
    applyWaterfall first.loan b = .ok second ∧
    applyWaterfall loan (a + b) = .ok whole ∧
    second.loan = whole.loan ∧
    whole.allocation.lateFeePaid
      = first.allocation.lateFeePaid + second.allocation.lateFeePaid ∧
    whole.allocation.interestPaid
      = first.allocation.interestPaid + second.allocation.interestPaid ∧
    whole.allocation.serviceFeePaid
      = first.allocation.serviceFeePaid + second.allocation.serviceFeePaid ∧
    whole.allocation.principalPaid
      = first.allocation.principalPaid + second.allocation.principalPaid := by
  have hfirst : a ≤ loan.remainingBalance := by omega
  have hsecond : b ≤ (loan.paidDown a).remainingBalance := by
    show b ≤ loan.remainingBalance - a
    omega
  have hparts : (allocate loan (a + b)).parts = List.zipWith (· + ·) (allocate loan a).parts
      (allocate (loan.paidDown a) b).parts := by
    simp only [allocate_parts, paidDown_owed, Waterfall.poured_add hb]
  simp only [RepaymentAllocation.parts, List.zipWith_cons_cons, List.zipWith_nil_left,
    List.cons.injEq, and_true] at hparts
  exact ⟨_, _, _, (applyWaterfall_ok h ha hfirst).mpr rfl, h.falls ha hfirst,
    (applyWaterfall_ok (h.paidDown ha hfirst) hb hsecond).mpr rfl,
    (applyWaterfall_ok h (Int.add_nonneg ha hb) hab).mpr rfl, paidDown_paidDown hb, hparts⟩

/-- A loan of `1000` that owes a late fee of `5` beside `60` of interest and a service
fee of `10`. -/
def sampleOwing : Loan where
  loanId := 1
  borrower := 21
  vendor := 30
  totalAmount := 1000
  guaranteeAmount := 200
  interestRateBps := 600
  interestAmount := 60
  serviceFeeAmount := 10
  principalOutstanding := 1000
  interestOutstanding := 60
  serviceFeeOutstanding := 10
  remainingBalance := 1075
  repaymentSchedule := [⟨2000, 1070, false, 0⟩]
  status := .active
  loanType := .standard
  createdAt := 100
  fundedAt := 100
  lateFeesOutstanding := 5
  lateFeeAccrualTimestamp := 88400

theorem waterfall_law_sample : ∃ first second whole : Waterfall,
    applyWaterfall sampleOwing 40 = .ok first ∧ applyWaterfall first.loan 60 = .ok second ∧
    applyWaterfall sampleOwing 100 = .ok whole ∧ second.loan = whole.loan := by
  have h : sampleOwing.Balanced :=
    ⟨rfl, by decide, by decide, by decide, by decide, by decide⟩
  obtain ⟨first, second, whole, hfirst, -, hsecond, hwhole, hloan, -⟩ :=
    waterfall_law (a := 40) (b := 60) h (by decide) (by decide) (by decide)
  exact ⟨first, second, whole, hfirst, hsecond, hwhole, hloan⟩

end StepFi.CreditLine

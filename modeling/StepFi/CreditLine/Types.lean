import StepFi.Host
import StepFi.Encoding

/-! The credit line's data types, their defaults and the protocol's constants. -/
namespace StepFi.CreditLine

structure ProtocolParameters where
  minGuaranteePercent : Int
  minReputationThreshold : Nat
  fullRepaymentReward : Nat
  defaultPenalty : Nat
  largeLoanThreshold : Int
  largeLoanDefaultPenalty : Nat
  baseInterestBps : Nat
  gracePeriodSeconds : Nat
  upgradeDelaySeconds : Nat
  lateFeeBps : Nat

def ProtocolParameters.fieldNames : List String :=
  ["min_guarantee_percent", "min_reputation_threshold", "full_repayment_reward",
    "default_penalty", "large_loan_threshold", "large_loan_default_penalty", "base_interest_bps",
    "grace_period_seconds", "upgrade_delay_seconds", "late_fee_bps"]

def ProtocolParameters.decode (r : Fields) : Reply ProtocolParameters :=
  r.unpack fieldNames do
    return {
      minGuaranteePercent := ← r.i128 "min_guarantee_percent"
      minReputationThreshold := ← r.u32 "min_reputation_threshold"
      fullRepaymentReward := ← r.u32 "full_repayment_reward"
      defaultPenalty := ← r.u32 "default_penalty"
      largeLoanThreshold := ← r.i128 "large_loan_threshold"
      largeLoanDefaultPenalty := ← r.u32 "large_loan_default_penalty"
      baseInterestBps := ← r.u32 "base_interest_bps"
      gracePeriodSeconds := ← r.u64 "grace_period_seconds"
      upgradeDelaySeconds := ← r.u64 "upgrade_delay_seconds"
      lateFeeBps := ← r.u32 "late_fee_bps" }

inductive LoanStatus where
  | pending | active | paid | defaulted | cancelled
  deriving DecidableEq, Repr

inductive LoanType where
  | standard | learnerInstallment
  deriving DecidableEq, Repr

structure RepaymentInstallment where
  dueDate : Nat
  amount : Int
  paid : Bool
  /-- `0` while unpaid. -/
  paidAt : Nat
  deriving DecidableEq, Repr

structure Loan where
  loanId : Nat
  borrower : Address
  vendor : Address
  totalAmount : Int
  guaranteeAmount : Int
  interestRateBps : Nat
  interestAmount : Int
  serviceFeeAmount : Int
  principalOutstanding : Int
  interestOutstanding : Int
  serviceFeeOutstanding : Int
  remainingBalance : Int
  repaymentSchedule : List RepaymentInstallment
  status : LoanStatus
  loanType : LoanType
  createdAt : Nat
  /-- `0` while not funded. -/
  fundedAt : Nat
  lateFeesOutstanding : Int
  /-- `0` while no late fee was ever charged. -/
  lateFeeAccrualTimestamp : Nat
  deriving DecidableEq, Repr

abbrev minGuaranteePercent : Int := 20
abbrev minReputationThreshold : Nat := 50
abbrev serviceFeeBps : Int := 100
abbrev bpsDenominator : Int := 10000
abbrev lateFeeBpsPerDay : Int := 50
abbrev secondsPerDay : Nat := 86400

def defaultProtocolParameters : ProtocolParameters where
  minGuaranteePercent := minGuaranteePercent
  minReputationThreshold := minReputationThreshold
  fullRepaymentReward := 10
  defaultPenalty := 20
  largeLoanThreshold := 5000
  largeLoanDefaultPenalty := 30
  baseInterestBps := 0
  gracePeriodSeconds := 0
  upgradeDelaySeconds := 86400
  lateFeeBps := 500

end StepFi.CreditLine

import StepFi.CreditLine.Spec
import StepFi.Lib.Transition

/-!
# Runs of the credit line

The contract from its deployment on, called by anyone at any ledger time, among
contracts that change and answer as they like. Every reachable book is sound
(`sound_of_reachable`), and so the active debt of every borrower is exact.
-/

namespace StepFi.CreditLine

open Lib

variable {W : Type} {c : Clients W} {s s' : State W}

/-- One event: a call, or a change of the world the contract has no part in. -/
inductive Label (W : Type) where
  | call (env : Env) (call : Call)
  | world (w : W)

def take (c : Clients W) (s : State W) : Label W → Except Failure (State W)
  | .call env call => exec c env call s
  | .world w => .ok { s with world := w }

def Step (c : Clients W) (s : State W) (l : Label W) (s' : State W) : Prop := take c s l = .ok s'

/-- The contract just deployed, with nothing stored. -/
def Deployed (s : State W) : Prop := s.line = Storage.empty

theorem Step.sound {l : Label W} (hb : s.line.book.Sound) (h : Step c s l s') :
    s'.line.book.Sound := by
  cases l with
  | call env call =>
    obtain ⟨e, he⟩ := exec_effect hb h
    rw [he.book]
    exact he.valid.sound hb
  | world w =>
    cases h
    exact hb

theorem sound_of_reachable (h : Reachable Deployed (Step c) s) : s.line.book.Sound :=
  h.invariant (fun _ h0 => h0 ▸ Book.Sound.empty) (fun _ _ _ _ hb hs => Step.sound hb hs)

/-- Other contracts that grant everything, to a borrower of score `80`. -/
def Clients.granting : Clients Unit where
  self := 1
  transfer := fun _ _ _ _ _ w => .ok w
  balance := fun _ _ _ => .ok 1000000
  isActive := fun _ _ _ => some true
  getParameters := fun _ _ => none
  getScore := fun _ _ _ => .ok 80
  increaseScore := fun _ _ _ _ _ w => .ok w
  decreaseScore := fun _ _ _ _ _ w => .ok w
  getPoolStats := fun _ _ => .ok ⟨1000000, 0, 1000000, 1000000, 10000⟩
  fundLoan := fun _ _ _ _ _ w => .ok w
  receiveRepayment := fun _ _ _ _ _ w => .ok w
  receiveGuarantee := fun _ _ _ _ w => .ok w
  absorbLoss := fun _ _ _ _ w => .ok w

/-- Borrower `21` takes a loan of `1000`, pays `300` of the `1070` owed, and is
two days late with the rest. -/
def sampleLabels : List (Label Unit) :=
  [.call (Env.signedBy [10] 50) (.initializeContract 10 3 4 2 6),
    .call (Env.signedBy [21] 100)
      (.createLoan ⟨21, 30, 1000, 200, [⟨2000, 1070, false, 0⟩], .standard⟩),
    .call (Env.signedBy [21] 200) (.repayLoan 21 1 300),
    .call (Env.signedBy [] 174800) (.applyLateFees 1)]

def sampleStart : State Unit := ⟨Storage.empty, ()⟩

/-! ## Active debt -/

/-- Only an active loan of the borrower's weighs in the debt, and it always
does: an active loan owes something. -/
theorem owed_eq_zero_iff {loan : Loan} (hs : loan.Sound) (borrower : Address) :
    Book.owed borrower loan = 0 ↔ ¬(loan.borrower = borrower ∧ loan.status = .active) := by
  unfold Book.owed
  split
  · rename_i h
    have hne : loan.remainingBalance ≠ 0 := fun h0 => by
      have := hs.paid_iff.mpr h0
      simp [h.2] at this
    simp [h, hne]
  · rename_i h
    simp [h]

/-- The stored loans are `1..counter`, and `get_user_active_debt` is the sum of
the balances of the borrower's active ones: never negative, and `0` exactly
when there is none. -/
theorem userActiveDebt_exact (h : Reachable Deployed (Step c) s) (borrower : Address) :
    (∀ id loan, readLoan s.line id = .ok loan → id ∈ Finset.Icc 1 s.line.loanCounter) ∧
    getUserActiveDebt s.line borrower = s.line.book.activeDebt borrower ∧
    0 ≤ getUserActiveDebt s.line borrower ∧
    (getUserActiveDebt s.line borrower = 0 ↔
      ∀ id loan, readLoan s.line id = .ok loan →
        ¬(loan.borrower = borrower ∧ loan.status = .active)) := by
  have hb := sound_of_reachable h
  have hdebt : getUserActiveDebt s.line borrower = s.line.book.activeDebt borrower :=
    hb.debt borrower
  refine ⟨fun id loan hl => hb.filled id loan (readLoan_ok.mp hl), hdebt, ?_, ?_⟩
  · rw [hdebt]
    exact tally_nonneg (hb.owed_nonneg borrower)
  · rw [hdebt, Book.activeDebt, tally_eq_zero_iff (hb.owed_nonneg borrower) hb.filled]
    simp only [readLoan_ok]
    refine forall_congr' fun id => forall_congr' fun loan => ?_
    exact ⟨fun h0 hl => (owed_eq_zero_iff (hb.loans id loan hl) borrower).mp (h0 hl),
      fun h0 hl => (owed_eq_zero_iff (hb.loans id loan hl) borrower).mpr (h0 hl)⟩

theorem userActiveDebt_exact_sample : ∃ s : State Unit, getUserActiveDebt s.line 21 = 777 ∧
    getUserActiveDebt s.line 21 = s.line.book.activeDebt 21 := by
  have hrun : (replay (take .granting) sampleStart sampleLabels).toOption.map
      (fun r => getUserActiveDebt r.2.line 21) = some 777 := by decide +kernel
  obtain ⟨_, s, hreach, hs⟩ :=
    Reachable.of_replay (I := Deployed) (R := Step .granting) hrun rfl fun _ _ _ h => h
  exact ⟨s, hs, (userActiveDebt_exact hreach 21).2.1⟩

end StepFi.CreditLine

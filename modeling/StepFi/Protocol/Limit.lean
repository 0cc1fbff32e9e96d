import StepFi.Protocol.Funds

/-!
# The credit limit at activation

A loan becomes active by `create_loan`, which checks the borrower's debt against
the limit of the score at that moment, or by `approve_loan`, which does not: the
check was made when the loan was requested. `limit_iff_approvals_fit` says which
runs respect the limit at every activation.
-/

namespace StepFi.Protocol

open Lib CreditLine

variable {d : Deployment} {env : Env} {s s' s₀ : State} {l : Label} {loan : Loan} {p : Storage}
variable {w w' : World} {tr : List (State × Label)}

/-- The borrower's active debt is within the limit of the current score. -/
def WithinLimit (s : State) (borrower : Address) : Prop :=
  getUserActiveDebt s.line borrower
    ≤ creditLimit (Reputation.getScore s.world.reputation borrower)

instance (s : State) (borrower : Address) : Decidable (WithinLimit s borrower) :=
  inferInstanceAs (Decidable (_ ≤ _))

/-- A step that activates a loan leaves its borrower within the limit. -/
def LimitRespected (l : Label) (s' : State) : Prop := OnActivation (WithinLimit s') s' l

instance (l : Label) (s' : State) : Decidable (LimitRespected l s') :=
  inferInstanceAs (Decidable (OnActivation _ s' l))

/-- The loan fits the limit of its borrower's score, on top of the debt there is. -/
def FitsLimit (s : State) (loan : Loan) : Prop :=
  getUserActiveDebt s.line loan.borrower + loan.remainingBalance
    ≤ creditLimit (Reputation.getScore s.world.reputation loan.borrower)

instance (s : State) (loan : Loan) : Decidable (FitsLimit s loan) :=
  inferInstanceAs (Decidable (_ ≤ _))

/-! ## The score at activation -/

theorem lend_reputation (h : LendFlow (clients d) env p loan w w') :
    w'.reputation = w.reputation := by
  obtain ⟨pool, -, h⟩ := h
  split at h
  · obtain ⟨-, q, -, rfl⟩ := callPool_ok.mp h
    rfl
  · rw [h]

theorem issue_reputation (h : IssueFlow (clients d) env p loan w w') :
    w'.reputation = w.reputation := by
  obtain ⟨token, w₁, -, h₁, h₂⟩ := h.payments
  have hpaid := transfer_reputation h₁
  split at h₂
  · rw [lend_reputation h₂, hpaid]
  · rw [h₂, hpaid]

theorem getScore_ok {rep user : Address} {score : Nat} :
    (clients d).getScore rep user w = .ok score ↔
      rep = d.reputation ∧ Reputation.getScore w.reputation user = score := by
  simp only [clients, bind_ok, ensure_ok, pure_ok, exists_const]

/-- The score a check reads is the reputation contract's. -/
theorem validateReputation_score {user : Address} {score : Nat}
    (h : validateReputation (clients d) p w user = .ok score) :
    score = Reputation.getScore w.reputation user := by
  simp only [validateReputation, bind_ok, getScore_ok, ensure_ok, pure_ok, exists_const] at h
  obtain ⟨_, -, _, ⟨-, rfl⟩, -, rfl⟩ := h
  rfl

theorem Step.limit_iff (h : Step d s l s') (hi : Invariant d s) :
    LimitRespected l s' ↔ OnApproval (FitsLimit s) s l := by
  have htaken := h.taken
  obtain ⟨env, action⟩ := l
  cases action with
  | line call =>
    obtain ⟨e, hrecords, hvalid, hbook, hflow, -, -⟩ := exec_effect hi.book htaken
    have hdebt : ∀ b, s'.line.userActiveDebt b = (e.apply s.line.book).debt b := fun b =>
      congrFun (congrArg Book.debt hbook) b
    cases hrecords with
    | passive hpassive => cases call <;> first | rfl | exact hpassive.elim
    -- The check was made against the debt to which the balance is added now.
    | @createLoan r loan hissued hactive =>
      have hflow : IssueFlow (clients d) env s.line loan s.world s'.world := hflow
      obtain ⟨score, hscore, hlimit⟩ := hflow.credit
      rw [validateReputation_score hscore] at hlimit
      refine ⟨fun _ => trivial, fun _ => ?_⟩
      show WithinLimit s' r.user
      rw [← hissued.borrower, WithinLimit, getUserActiveDebt, hdebt, issue_reputation hflow,
        Event.apply_issue_active hactive]
      show (s.line.book.revise loan loan.remainingBalance).debt loan.borrower ≤ _
      rw [Book.debt_revise, if_pos rfl]
      exact hlimit
    | approveLoan loan =>
      cases hvalid with
      | activate hold =>
        have hflow : ApproveFlow (clients d) env s.line loan s.world s'.world := hflow
        -- An approval compares nothing: the debt grows by the balance, within the limit or not.
        have hafter : s'.line.book.loan loan.loanId
            = some { loan with status := .active, fundedAt := env.timestamp } := by
          rw [hbook]
          exact Function.update_self ..
        have hpost : LimitRespected ⟨env, .line (.approveLoan loan.loanId)⟩ s' ↔
            WithinLimit s' loan.borrower := by
          simp [LimitRespected, OnActivation, hafter]
        rw [hpost, WithinLimit, getUserActiveDebt, hdebt, lend_reputation hflow.lend, Event.apply,
          Book.debt_revise, if_pos rfl]
        exact (mem_loan_iff (P := FitsLimit s) hold).symm
    | _ => rfl
  | _ => rfl

/-- In a run from deployment every activation leaves the borrower within the
credit limit, exactly when every approved loan fits the limit at that time. -/
theorem limit_iff_approvals_fit (h : Run (Step d) s₀ tr s) (h0 : Deployed s₀) :
    (∀ x ∈ outcomes tr s, LimitRespected x.2.1 x.2.2) ↔
      ∀ x ∈ tr, OnApproval (FitsLimit x.1) x.1 x.2 :=
  h.outcomes_iff_steps (Q := fun _ l s' => LimitRespected l s') h0
    fun _ _ _ hr hs => Step.limit_iff hs (invariant_of_reachable hr)

/-- A loan requested and approved. -/
theorem limit_iff_approvals_fit_sample : ∃ (tr : List (State × Label)) (s : State),
    getUserActiveDebt s.line 21 = 4280 ∧
      ∀ x ∈ outcomes tr s, LimitRespected x.2.1 x.2.2 := by
  have hrun : (replay (take .sample) sampleStart
      (configure ++ [request 21, approve 1])).toOption.map
      (fun r : List (State × Label) × State => (getUserActiveDebt r.2.line 21,
        decide (∀ x ∈ r.1, OnApproval (FitsLimit x.1) x.1 x.2))) = some (4280, true) := by
    decide +kernel
  obtain ⟨tr, s, hr, hobs⟩ := replay_observed hrun
  obtain ⟨hdebt, hfits⟩ := Prod.mk.injEq .. ▸ hobs
  have hrun : Run (Step .sample) sampleStart tr s := run_of_replay (by decide) hr
  exact ⟨tr, s, hdebt,
    (limit_iff_approvals_fit hrun sampleStart_deployed).mpr (of_decide_eq_true hfits)⟩

/-- Two requests of `4280` each pass the check against a limit of `5000`, and
both are approved: the debt is `8560`. -/
theorem approvals_exceed_limit : ¬∀ (tr : List (State × Label)) (s : State),
    Run (Step .sample) sampleStart tr s → ∀ x ∈ outcomes tr s, LimitRespected x.2.1 x.2.2 := by
  intro hall
  have hrun : (replay (take .sample) sampleStart
      (configure ++ [request 21, request 21, approve 1, approve 2])).toOption.map
      (fun r : List (State × Label) × State =>
        decide (∀ x ∈ outcomes r.1 r.2, LimitRespected x.2.1 x.2.2)) = some false := by
    decide +kernel
  obtain ⟨tr, s, hr, hobs⟩ := replay_observed hrun
  exact of_decide_eq_false hobs (hall tr s (run_of_replay (by decide) hr))

end StepFi.Protocol

import StepFi.Protocol.Limit
import StepFi.Vouching.Exact

/-!
# The standing of a borrower

The credit line moves a score in two places: it rewards the payment that closes a
loan and penalises a default. Over a run in which nobody overwrites a borrower's
score, the score is what other updaters made of it, with one reward for each loan
the borrower has paid and one penalty for each that defaulted (`score_exact`), and
those loans are the ones the book shows as paid and as defaulted.
-/

namespace StepFi.Protocol

open Lib CreditLine

variable {d : Deployment} {env : Env} {p : Storage} {loan : Loan} {w w' : World} {s s' s₀ : State}
variable {l : Label} {e : Event} {b : Address} {tr : List (State × Label)} {call : Call}

/-! ## What the credit line does to a score -/

/-- The update of a score that goes with an entry. -/
def Event.update (d : Deployment) (env : Env) (p : Storage) (w : World) :
    Event → Option Reputation.Call
  | .repay loan _ amount schedule =>
    if (loan.accrued env.timestamp).remainingBalance = amount then
      some (.increaseScore d.creditLine loan.borrower
        (scoreIncrease env.timestamp ((loan.accrued env.timestamp).repaid amount schedule)))
    else none
  | .forfeit loan =>
    some (.decreaseScore d.creditLine loan.borrower (calculateDefaultPenalty (clients d) p w loan))
  | _ => none

theorem callPool_reputation {pool : Address}
    {f : LiquidityPool.State → Except Failure LiquidityPool.State}
    (h : callPool d pool f w = .ok w') : w'.reputation = w.reputation := by
  obtain ⟨-, q, -, rfl⟩ := callPool_ok.mp h
  rfl

theorem callPool_parameters {pool : Address}
    {f : LiquidityPool.State → Except Failure LiquidityPool.State}
    (h : callPool d pool f w = .ok w') : w'.parameters = w.parameters := by
  obtain ⟨-, q, -, rfl⟩ := callPool_ok.mp h
  rfl

theorem getProtocolParameters_congr (h : w'.parameters = w.parameters) :
    getProtocolParameters (clients d) p w' = getProtocolParameters (clients d) p w := by
  unfold getProtocolParameters
  cases p.parametersContract with
  | none => rfl
  | some address => simp only [clients, h]

/-- The calls of a repayment change the scores by the reward, if at all. -/
theorem repay_update {amount : Int} {schedule : List RepaymentInstallment}
    (hrep : p.reputationContract.isSome = true)
    (h : RepayFlow (clients d) env p loan amount schedule w w') :
    if (loan.accrued env.timestamp).remainingBalance = amount then
      Reputation.increaseScore (env.callFrom d.creditLine []) d.creditLine loan.borrower
        (scoreIncrease env.timestamp ((loan.accrued env.timestamp).repaid amount schedule))
        w.reputation = .ok w'.reputation
    else w'.reputation = w.reputation := by
  obtain ⟨token, pool, w₁, w₂, -, -, h₁, h₂, h₃⟩ := h
  have hkept : w₂.reputation = w.reputation :=
    (callPool_reputation h₂).trans (transfer_reputation h₁)
  split at h₃
  · rename_i hfull
    obtain ⟨w₃, h₃, h₄⟩ := h₃
    rw [if_pos hfull]
    rcases rewardRepayment_ok.mp h₄ with ⟨hnone, -⟩ | ⟨reputation, -, h₄⟩
    · simp [hnone] at hrep
    · obtain ⟨-, q, hq, rfl⟩ := callReputation_ok.mp h₄
      rw [transfer_reputation h₃, hkept] at hq
      exact hq
  · rename_i hrest
    rw [if_neg hrest, h₃, hkept]

theorem forfeit_update (hrep : p.reputationContract.isSome = true)
    (h : ForfeitFlow (clients d) env p loan w w') :
    Reputation.decreaseScore (env.callFrom d.creditLine []) d.creditLine loan.borrower
      (calculateDefaultPenalty (clients d) p w loan) w.reputation = .ok w'.reputation := by
  obtain ⟨token, pool, w₁, w₂, -, -, h₁, h₂, h₃⟩ := h
  have hkept : w₂.reputation = w.reputation ∧ w₂.parameters = w.parameters := by
    split at h₂
    · exact ⟨(callPool_reputation h₂).trans (callPool_reputation h₁),
        (callPool_parameters h₂).trans (callPool_parameters h₁)⟩
    · rw [h₂]
      exact ⟨callPool_reputation h₁, callPool_parameters h₁⟩
  rcases penalizeDefault_ok.mp h₃ with ⟨hnone, -⟩ | ⟨reputation, -, h₃⟩
  · simp [hnone] at hrep
  · obtain ⟨-, q, hq, rfl⟩ := callReputation_ok.mp h₃
    rw [hkept.1, calculateDefaultPenalty, getProtocolParameters_congr hkept.2] at hq
    exact hq

/-- The calls that go with an entry change the scores by its update, or not at
all. -/
theorem flow_update (hrep : e.record ≠ none → p.reputationContract.isSome = true)
    (h : Flow (clients d) env p w w' e) :
    match Event.update d env p w e with
    | some call =>
      Reputation.exec (env.callFrom d.creditLine []) call w.reputation = .ok w'.reputation
    | none => w'.reputation = w.reputation := by
  cases e with
  | idle => exact congrArg World.reputation h
  | accrue loan now => exact congrArg World.reputation h
  | issue loan => exact issue_reputation h
  | activate loan now => exact lend_reputation h.lend
  | cancel loan =>
    obtain ⟨token, -, h⟩ := h
    exact transfer_reputation h
  | repay loan now amount schedule =>
    have hupdate := repay_update (hrep (by simp [Event.record])) h.2
    by_cases hfull : (loan.accrued env.timestamp).remainingBalance = amount
    · rw [if_pos hfull] at hupdate
      simp only [Event.update, if_pos hfull]
      exact hupdate
    · rw [if_neg hfull] at hupdate
      simp only [Event.update, if_neg hfull]
      exact hupdate
  | forfeit loan => exact forfeit_update (hrep (by simp [Event.record])) h

/-! ## The reputation contract is configured -/

/-- Loans are only made once the reputation contract is configured. -/
def Rated (p : Storage) : Prop :=
  ∀ id loan, p.book.loan id = some loan → p.reputationContract.isSome = true

/-- No call takes the address away again. -/
theorem exec_rated {W : Type} {c : Clients W} {s s' : CreditLine.State W} (hb : s.line.book.Sound)
    (h : exec c env call s = .ok s') (hsome : s.line.reputationContract.isSome = true) :
    s'.line.reputationContract.isSome = true := by
  by_cases hr : call.Repoints
  · cases call with
    | initializeContract admin reputation registry pool token =>
      obtain ⟨p, hp, rfl⟩ := map_ok.mp h
      simp only [initializeContract, bind_ok, pure_ok] at hp
      obtain ⟨_, -, _, -, rfl⟩ := hp
      rfl
    | setReputationContract admin address =>
      obtain ⟨p, hp, rfl⟩ := map_ok.mp h
      rw [adminSet_spec hp]
      rfl
    | setVendorRegistry admin address =>
      obtain ⟨p, hp, rfl⟩ := map_ok.mp h
      rw [adminSet_spec hp]
      exact hsome
    | setLiquidityPool admin address =>
      obtain ⟨p, hp, rfl⟩ := map_ok.mp h
      rw [adminSet_spec hp]
      exact hsome
    | setParametersContract admin address =>
      obtain ⟨p, hp, rfl⟩ := map_ok.mp h
      rw [adminSet_spec hp]
      exact hsome
    | _ => exact hr.elim
  · obtain ⟨e, he⟩ := exec_effect hb h
    have haddress : s'.line.reputationContract = s.line.reputationContract :=
      congrArg Addresses.reputationContract (he.addresses hr)
    rwa [haddress]

/-- Before an entry writes a record, the address is there. -/
theorem Effect.rated {W : Type} {c : Clients W} {s s' : CreditLine.State W}
    (he : Effect c env call s s' e) (hrated : Rated s.line) (hr : e.record ≠ none) :
    s.line.reputationContract.isSome = true := by
  have hvalid := he.valid
  have hflow := he.flow
  cases hvalid with
  | idle => simp [Event.record] at hr
  | issue =>
    obtain ⟨score, hscore, -⟩ := hflow.credit
    simp only [validateReputation, bind_ok, demand_ok] at hscore
    obtain ⟨reputation, hsome, -⟩ := hscore
    rw [hsome]
    rfl
  | activate hold => exact hrated _ _ hold
  | cancel hold => exact hrated _ _ hold
  | accrue hold => exact hrated _ _ hold
  | repay hold => exact hrated _ _ hold
  | forfeit hold => exact hrated _ _ hold

theorem Step.rated (h : Step d s l s') (hi : Invariant d s) (hrated : Rated s.line) :
    Rated s'.line := by
  rcases h.inside_or_outside with ⟨call, -, hexec⟩ | ⟨hline, -⟩
  · obtain ⟨e, he⟩ := exec_effect hi.book hexec
    intro id loan hloan
    rw [he.book] at hloan
    rcases Event.loan_apply hloan with hr | hold
    · exact exec_rated hi.book hexec (Effect.rated he hrated (by simp [hr]))
    · exact exec_rated hi.book hexec (hrated id loan hold)
  · rwa [hline]

theorem rated_of_reachable (h : Reachable Deployed (Step d) s) : Rated s.line := by
  refine h.invariant (P := fun s => Rated s.line) (fun s h0 => ?_)
    fun s l s' hreach hrated hstep => hstep.rated (invariant_of_reachable hreach) hrated
  rw [h0.line]
  intro id loan hloan
  cases hloan

/-! ## The account of a score -/

/-- The loan that the step pays off in full. -/
def paidOff (s : State) (l : Label) : Option Loan :=
  let inFull (id : Nat) (amount : Int) : Option Loan :=
    (s.line.book.loan id).filter fun loan =>
      (loan.accrued l.env.timestamp).remainingBalance = amount
  match l.action with
  | .line (.repayLoan _ id amount) => inFull id amount
  | .line (.repayInstallment _ id _ amount) => inFull id amount
  | _ => none

/-- The loan that the step marks as defaulted. -/
def defaulted (s : State) (l : Label) : Option Loan :=
  match l.action with
  | .line (.markDefaulted id) => s.line.book.loan id
  | _ => none

/-- Those of the loans that are the borrower's. -/
def loansOf (b : Address) (loan : Option Loan) : List Loan :=
  (loan.filter fun loan => loan.borrower = b).toList

/-- The points the step earns the borrower. -/
def rewards (b : Address) (s : State) (l : Label) : Int :=
  ((loansOf b (paidOff s l)).map fun loan => (scoreIncrease l.env.timestamp loan : Int)).sum

/-- The points the step costs the borrower. -/
def penalties (d : Deployment) (b : Address) (s : State) (l : Label) : Int :=
  ((loansOf b (defaulted s l)).map fun loan =>
    (calculateDefaultPenalty (clients d) s.line s.world loan : Int)).sum

/-- By how much an update from outside moves the borrower's score. -/
def Label.moves (b : Address) (l : Label) : Int :=
  match l.action with
  | .reputation call => if call.scored = some b then call.shift else 0
  | _ => 0

/-- The borrower's score is set, not moved. -/
def Label.overwrites (b : Address) (l : Label) : Bool :=
  match l.action with
  | .reputation (.setScore _ user _) => user = b
  | _ => false

theorem loansOf_some : loansOf b (some loan) = if loan.borrower = b then [loan] else [] := by
  by_cases hb : loan.borrower = b <;> simp [loansOf, Option.filter, hb]

/-- The score after an update that does not overwrite it. -/
theorem update_score {q q' : Reputation.Storage} {update : Reputation.Call} (hb : q.Bounded)
    (hset : ∀ updater score, update ≠ .setScore updater b score)
    (h : Reputation.exec env update q = .ok q') :
    (q'.scores b : Int) = q.scores b + if update.scored = some b then update.shift else 0 := by
  refine Vouching.Scores.score_reputation hb h ?_
  cases update with
  | setScore updater user score =>
    by_cases hu : user = b
    · subst hu
      exact absurd rfl (hset updater score)
    · simpa [Vouching.Scores.Label.overwrites] using hu
  | _ => rfl

/-- What an entry does to the score of `b`, seen through its update. -/
def Event.shift (d : Deployment) (env : Env) (p : Storage) (w : World) (b : Address) (e : Event) :
    Int :=
  match Event.update d env p w e with
  | some call => if call.scored = some b then call.shift else 0
  | none => 0

theorem flow_score (hb : w.reputation.Bounded)
    (hrep : e.record ≠ none → p.reputationContract.isSome = true)
    (h : Flow (clients d) env p w w' e) :
    (w'.reputation.scores b : Int) = w.reputation.scores b + Event.shift d env p w b e := by
  have hupdate := flow_update hrep h
  have hset : ∀ update, Event.update d env p w e = some update →
      ∀ updater score, update ≠ .setScore updater b score := by
    intro update hsome updater score
    rintro rfl
    cases e with
    | repay loan now amount schedule =>
      simp only [Event.update] at hsome
      split at hsome <;> simp at hsome
    | forfeit loan => simp [Event.update] at hsome
    | _ => simp [Event.update] at hsome
  unfold Event.shift
  cases hsome : Event.update d env p w e with
  | none =>
    rw [hsome] at hupdate
    rw [hupdate, Int.add_zero]
  | some update =>
    rw [hsome] at hupdate
    exact update_score hb (hset update hsome) hupdate

/-- A repayment's part of the account. -/
theorem shift_repay {amount : Int} {schedule : List RepaymentInstallment}
    (hlast : lastDueDate { loan with repaymentSchedule := schedule } = lastDueDate loan) :
    Event.shift d env p w b (.repay loan env.timestamp amount schedule) =
      ((loansOf b ((some loan).filter fun loan =>
        (loan.accrued env.timestamp).remainingBalance = amount)).map
          fun loan => (scoreIncrease env.timestamp loan : Int)).sum := by
  have hreward : scoreIncrease env.timestamp ((loan.accrued env.timestamp).repaid amount schedule)
      = scoreIncrease env.timestamp loan := by
    unfold scoreIncrease
    rw [← hlast]
    rfl
  by_cases hfull : (loan.accrued env.timestamp).remainingBalance = amount
  · have hpaid : (some loan).filter (fun loan =>
        decide ((loan.accrued env.timestamp).remainingBalance = amount)) = some loan := by
      simp [Option.filter, hfull]
    rw [hpaid, loansOf_some]
    simp only [Event.shift, Event.update, if_pos hfull, hreward, Reputation.Call.scored,
      Reputation.Call.shift, Option.some.injEq]
    split <;> simp
  · simp [Event.shift, Event.update, hfull, Option.filter, loansOf]

theorem shift_forfeit : Event.shift d env p w b (.forfeit loan) =
    -((loansOf b (some loan)).map fun loan =>
      (calculateDefaultPenalty (clients d) p w loan : Int)).sum := by
  rw [loansOf_some]
  simp only [Event.shift, Event.update, Reputation.Call.scored, Reputation.Call.shift,
    Option.some.injEq]
  split <;> simp

/-- One step of the account. -/
theorem Step.standing (h : Step d s l s') (hi : Invariant d s) (hrated : Rated s.line)
    (hset : l.overwrites b = false) :
    (s'.world.reputation.scores b : Int) = s.world.reputation.scores b + l.moves b
      + rewards b s l - penalties d b s l := by
  have hstep := h.inside_or_outside
  obtain ⟨env, action⟩ := l
  obtain ⟨line, w⟩ := s'
  rcases hstep with ⟨call, hcall, hexec⟩ | ⟨hline, hout⟩
  · obtain rfl : action = .line call := hcall
    obtain ⟨e, he⟩ := exec_effect hi.book hexec
    have hscore := flow_score (b := b) hi.world.scores (Effect.rated he hrated) he.flow
    have hvalid := he.valid
    rw [hscore]
    cases he.records with
    | repayLoan loan amount =>
      cases hvalid with
      | repay hold =>
        have hshift : Event.shift d env s.line s.world b
            (.repay loan env.timestamp amount loan.repaymentSchedule) = _ := shift_repay rfl
        simp [hshift, Label.moves, rewards, penalties,
          paidOff, defaulted, loansOf, hold]
    | repayInstallment loan index amount =>
      cases hvalid with
      | repay hold =>
        simp [shift_repay (lastDueDate_reschedule (markInstallment_dueDates env.timestamp index _)),
          Label.moves, rewards, penalties, paidOff, defaulted, loansOf, hold]
    | markDefaulted loan =>
      cases hvalid with
      | forfeit hold =>
        simp [shift_forfeit, Label.moves, rewards, penalties, paidOff, defaulted, loansOf, hold,
          Int.sub_eq_add_neg]
    | passive hpassive =>
      cases call <;> first
        | exact hpassive.elim
        | simp [Event.shift, Event.update, Label.moves, rewards, penalties, paidOff, defaulted,
            loansOf]
    | _ =>
      simp [Event.shift, Event.update, Label.moves, rewards, penalties, paidOff, defaulted, loansOf]
  · cases hout with
    | @reputation update q hq =>
      have hkept : ∀ updater score, update ≠ .setScore updater b score := by
        intro updater score
        rintro rfl
        simp [Label.overwrites] at hset
      have hscore := update_score hi.world.scores hkept hq
      simpa [Label.moves, rewards, penalties, paidOff, defaulted, loansOf] using hscore
    | _ => simp [Label.moves, rewards, penalties, paidOff, defaulted, loansOf]

/-! ## The loans behind it -/

/-- How many of the borrower's loans have the status. -/
def loansWith (status : LoanStatus) (b : Address) (book : Book) : Int :=
  tally book.counter book.loan fun loan => if loan.borrower = b ∧ loan.status = status then 1 else 0

/-- The loan that an entry pays off in full. -/
def settledBy : Event → Option Loan
  | .repay loan now amount _ =>
    (some loan).filter fun loan => (loan.accrued now).remainingBalance = amount
  | _ => none

/-- The loan that an entry gives up. -/
def forfeitedBy : Event → Option Loan
  | .forfeit loan => some loan
  | _ => none

/-- What a step closes is what its entry does; a step outside the credit line makes none. -/
theorem Step.closes (h : Step d s l s') (hi : Invariant d s) :
    ∃ e : Event, s'.line.book = e.apply s.line.book ∧ e.Valid s.line.book ∧
      paidOff s l = settledBy e ∧ defaulted s l = forfeitedBy e := by
  have hstep := h.inside_or_outside
  obtain ⟨env, action⟩ := l
  obtain ⟨line, w⟩ := s'
  rcases hstep with ⟨call, hcall, hexec⟩ | ⟨hline, hout⟩
  · obtain rfl : action = .line call := hcall
    obtain ⟨e, he⟩ := exec_effect hi.book hexec
    have hvalid := he.valid
    refine ⟨e, he.book, hvalid, ?_⟩
    cases he.records with
    | repayLoan loan amount =>
      cases hvalid with
      | repay hold => simp [paidOff, defaulted, settledBy, forfeitedBy, hold]
    | repayInstallment loan index amount =>
      cases hvalid with
      | repay hold => simp [paidOff, defaulted, settledBy, forfeitedBy, hold]
    | markDefaulted loan =>
      cases hvalid with
      | forfeit hold => simp [paidOff, defaulted, settledBy, forfeitedBy, hold]
    | passive hpassive =>
      cases call <;> first
        | exact hpassive.elim
        | exact ⟨rfl, rfl⟩
    | _ => exact ⟨rfl, rfl⟩
  · refine ⟨.idle, congrArg Storage.book hline, .idle, ?_⟩
    cases hout <;> exact ⟨rfl, rfl⟩

/-- A repayment in full writes the record as paid, any other as active. -/
theorem repaid_status (loan : Loan) (now : Nat) (amount : Int)
    (schedule : List RepaymentInstallment) :
    ((loan.accrued now).repaid amount schedule).status
      = if (loan.accrued now).remainingBalance = amount then .paid else .active := rfl

theorem change_paid {book : Book} (hv : e.Valid book) (b : Address) :
    e.change (fun loan => if loan.borrower = b ∧ loan.status = .paid then 1 else 0)
      = (loansOf b (settledBy e)).length := by
  cases hv with
  | idle => rfl
  | issue hid hs hopen => rcases hopen with h | h <;> simp [Event.change, settledBy, loansOf, h]
  | activate hold hbefore => simp [Event.change, settledBy, loansOf, hbefore]
  | cancel hold hbefore => simp [Event.change, settledBy, loansOf, hbefore]
  | accrue hold hbefore =>
    simp [Event.change, settledBy, loansOf, Loan.accrued, Loan.charged, hbefore]
  | @repay loan now amount schedule hold hbefore =>
    have hborrower : ((loan.accrued now).repaid amount schedule).borrower = loan.borrower := rfl
    simp only [Event.change, repaid_status, hborrower, hbefore, settledBy]
    by_cases hfull : (loan.accrued now).remainingBalance = amount
    · by_cases hb : loan.borrower = b <;> simp [loansOf, Option.filter, hfull, hb]
    · simp [loansOf, Option.filter, hfull]
  | forfeit hold hbefore => simp [Event.change, settledBy, loansOf, hbefore]

theorem change_defaulted {book : Book} (hv : e.Valid book) (b : Address) :
    e.change (fun loan => if loan.borrower = b ∧ loan.status = .defaulted then 1 else 0)
      = (loansOf b (forfeitedBy e)).length := by
  cases hv with
  | idle => rfl
  | issue hid hs hopen => rcases hopen with h | h <;> simp [Event.change, forfeitedBy, loansOf, h]
  | activate hold hbefore => simp [Event.change, forfeitedBy, loansOf, hbefore]
  | cancel hold hbefore => simp [Event.change, forfeitedBy, loansOf, hbefore]
  | accrue hold hbefore =>
    simp [Event.change, forfeitedBy, loansOf, Loan.accrued, Loan.charged, hbefore]
  | @repay loan now amount schedule hold hbefore =>
    simp only [Event.change, repaid_status, hbefore, forfeitedBy]
    by_cases hfull : (loan.accrued now).remainingBalance = amount <;> simp [loansOf, hfull]
  | @forfeit loan hold hbefore =>
    by_cases hb : loan.borrower = b <;>
      simp [Event.change, forfeitedBy, loansOf, Option.filter, hbefore, hb]

theorem Step.loansWith (h : Step d s l s') (hi : Invariant d s) :
    loansWith .paid b s'.line.book
        = loansWith .paid b s.line.book + (loansOf b (paidOff s l)).length ∧
      loansWith .defaulted b s'.line.book
        = loansWith .defaulted b s.line.book + (loansOf b (defaulted s l)).length := by
  obtain ⟨e, hbook, hvalid, hpaid, hdefaulted⟩ := h.closes hi
  simp only [Protocol.loansWith, hbook, hvalid.tally_apply hi.book, hpaid, hdefaulted,
    change_paid hvalid, change_defaulted hvalid, and_self]

/-- The loan `id` stands with the status. -/
def Stands (status : LoanStatus) (id : Nat) (book : Book) : Prop :=
  ∃ loan, book.loan id = some loan ∧ loan.status = status

/-- No entry rewrites a loan that is paid or defaulted, so one that stands so stood so
before, or the entry closed it. -/
theorem stands_apply {b : Book} {id : Nat} {status : LoanStatus} (hb : b.Sound) (hv : e.Valid b)
    (hclosed : status = .paid ∨ status = .defaulted) :
    Stands status id (e.apply b) ↔ Stands status id b ∨
      ∃ new, e.record = some new ∧ new.loanId = id ∧ new.status = status := by
  constructor
  · intro h
    obtain ⟨loan, hloan, hstatus⟩ := h
    have hkeyed := (hv.sound hb).keyed id loan hloan
    rcases Event.loan_apply hloan with hr | hold
    · exact .inr ⟨loan, hr, hkeyed, hstatus⟩
    · exact .inl ⟨loan, hold, hstatus⟩
  · intro h
    rcases h with ⟨loan, hloan, rfl⟩ | ⟨new, hr, rfl, hstatus⟩
    · refine ⟨loan, ?_, rfl⟩
      have hother : ∀ {old : Loan}, b.loan old.loanId = some old →
          old.status = .pending ∨ old.status = .active → id ≠ old.loanId := by
        rintro old hold hopen rfl
        obtain rfl := Option.some.inj (hold.symm.trans hloan)
        rcases hopen with hopen | hopen <;> simp [hopen] at hclosed
      cases hv with
      | idle => exact hloan
      | issue hid =>
        have hne : id ≠ b.counter + 1 := by
          rintro rfl
          rw [hb.filled.fresh] at hloan
          cases hloan
        exact (Function.update_of_ne (hid ▸ hne) ..).trans hloan
      | activate hold hopen =>
        exact (Function.update_of_ne (hother hold (.inl hopen)) ..).trans hloan
      | cancel hold hopen =>
        exact (Function.update_of_ne (hother hold (.inl hopen)) ..).trans hloan
      | accrue hold hopen =>
        exact (Function.update_of_ne (hother hold (.inr hopen)) ..).trans hloan
      | repay hold hopen =>
        exact (Function.update_of_ne (hother hold (.inr hopen)) ..).trans hloan
      | forfeit hold hopen =>
        exact (Function.update_of_ne (hother hold (.inr hopen)) ..).trans hloan
    · refine ⟨new, ?_, hstatus⟩
      cases hv with
      | idle => cases hr
      | _ =>
        obtain rfl := Option.some.inj hr
        exact Function.update_self ..

/-- The step pays off, or marks as defaulted, the loan `id`. -/
def Closes (closed : Option Loan) (id : Nat) : Prop :=
  ∃ loan, closed = some loan ∧ loan.loanId = id

/-- The record a valid entry writes is a closed one if the entry closes the loan. -/
theorem record_closed {book : Book} (hv : e.Valid book) (id : Nat) :
    ((∃ new, e.record = some new ∧ new.loanId = id ∧ new.status = .paid) ↔
      Closes (settledBy e) id) ∧
    ((∃ new, e.record = some new ∧ new.loanId = id ∧ new.status = .defaulted) ↔
      Closes (forfeitedBy e) id) := by
  cases hv with
  | idle => simp [Event.record, Closes, settledBy, forfeitedBy]
  | issue hid hs hopen =>
    rcases hopen with h | h <;> simp [Event.record, Closes, settledBy, forfeitedBy, h]
  | activate => simp [Event.record, Closes, settledBy, forfeitedBy]
  | cancel => simp [Event.record, Closes, settledBy, forfeitedBy]
  | accrue hold hbefore =>
    simp [Event.record, Closes, settledBy, forfeitedBy, Loan.accrued, Loan.charged, hbefore]
  | @repay loan now amount schedule =>
    have hid : ((loan.accrued now).repaid amount schedule).loanId = loan.loanId := rfl
    simp only [Event.record, Option.some.injEq, exists_eq_left', hid, repaid_status, settledBy,
      forfeitedBy]
    by_cases hfull : (loan.accrued now).remainingBalance = amount <;>
      simp [Closes, Option.filter, hfull]
  | forfeit => simp [Event.record, Closes, settledBy, forfeitedBy]

theorem Step.stands (h : Step d s l s') (hi : Invariant d s) (id : Nat) :
    (Stands .paid id s'.line.book ↔
      Stands .paid id s.line.book ∨ Closes (paidOff s l) id) ∧
    (Stands .defaulted id s'.line.book ↔
      Stands .defaulted id s.line.book ∨ Closes (defaulted s l) id) := by
  obtain ⟨e, hbook, hvalid, hpaid, hdefaulted⟩ := h.closes hi
  obtain ⟨hsettled, hforfeited⟩ := record_closed hvalid id
  rw [hbook, stands_apply hi.book hvalid (.inl rfl), stands_apply hi.book hvalid (.inr rfl),
    hpaid, hdefaulted, hsettled, hforfeited]
  exact ⟨Iff.rfl, Iff.rfl⟩

/-- What a run has done to the borrower's score, and which loans are behind it: those
that stand paid are those it paid off, and as many of them are the borrower's as
rewards were earned; and so with those that stand defaulted. -/
structure Account (d : Deployment) (b : Address) (tr : List (State × Label))
    (s : State) : Prop where
  score : (s.world.reputation.scores b : Int) = (tr.map fun x => x.2.moves b).sum
    + (tr.map fun x => rewards b x.1 x.2).sum - (tr.map fun x => penalties d b x.1 x.2).sum
  paid : loansWith .paid b s.line.book
    = (tr.map fun x => ((loansOf b (paidOff x.1 x.2)).length : Int)).sum
  defaulted : loansWith .defaulted b s.line.book
    = (tr.map fun x => ((loansOf b (defaulted x.1 x.2)).length : Int)).sum
  paidById : ∀ id, Stands .paid id s.line.book ↔ ∃ x ∈ tr, Closes (paidOff x.1 x.2) id
  defaultedById : ∀ id,
    Stands .defaulted id s.line.book ↔ ∃ x ∈ tr, Closes (Protocol.defaulted x.1 x.2) id

theorem Deployed.account (h : Deployed s) (b : Address) : Account d b [] s where
  score := by
    rw [h.reputation]
    rfl
  paid := by
    rw [h.line]
    rfl
  defaulted := by
    rw [h.line]
    rfl
  paidById := by
    rw [h.line]
    simp [Stands, Storage.book, Storage.empty]
  defaultedById := by
    rw [h.line]
    simp [Stands, Storage.book, Storage.empty]

theorem Account.step (ha : Account d b tr s) (h : Step d s l s') (hi : Invariant d s)
    (hrated : Rated s.line) (hset : l.overwrites b = false) :
    Account d b (tr ++ [(s, l)]) s' := by
  have hscore := h.standing hi hrated hset
  obtain ⟨hpaid, hdefaulted⟩ := h.loansWith (b := b) hi
  have hbefore := ha.score
  constructor
  · simp only [List.map_append, List.sum_append, List.map_singleton, List.sum_singleton]
    omega
  · rw [hpaid, ha.paid]
    simp
  · rw [hdefaulted, ha.defaulted]
    simp
  · intro id
    rw [(h.stands hi id).1, ha.paidById id]
    simp [or_and_right, exists_or]
  · intro id
    rw [(h.stands hi id).2, ha.defaultedById id]
    simp [or_and_right, exists_or]

/-- In every run from deployment that does not overwrite the borrower's score, the
score is the sum of the updates from outside, of a reward for each loan the
borrower paid, `15` points or `10`, and of a penalty for each loan that defaulted;
and a loan stands paid or defaulted exactly if the run paid it off or defaulted it. -/
theorem score_exact (h : Run (Step d) s₀ tr s) (h0 : Deployed s₀)
    (hset : ∀ x ∈ tr, x.2.overwrites b = false) : Account d b tr s := by
  induction h with
  | nil => exact h0.account b
  | @snoc tr t u l hr hs ih =>
    have hreach : Reachable Deployed (Step d) t := hr.reachable h0
    rw [List.forall_mem_append, List.forall_mem_singleton] at hset
    exact (ih hset.1).step hs (invariant_of_reachable hreach) (rated_of_reachable hreach) hset.2

/-- The borrower `21`, raised to `80` points, pays a loan off before it is due. -/
def standingLabels : List Label :=
  configure.take 6 ++ [.by 11 60 (.reputation (.increaseScore 11 21 80)),
    .by 20 60 (.pool (.deposit 20 10000)), openLoan 21, repay 21 1 1070]

theorem score_exact_sample : ∃ (tr : List (State × Label)) (s : State),
    Account .sample 21 tr s ∧ s.world.reputation.scores 21 = 95 ∧
      loansWith .paid 21 s.line.book = 1 := by
  have hreplay : (replay (take .sample) sampleStart standingLabels).toOption.map
      (fun r : List (State × Label) × State => (r.2.world.reputation.scores 21,
        loansWith .paid 21 r.2.line.book,
        decide (∀ x ∈ r.1, x.2.overwrites 21 = false))) = some (95, 1, true) := by
    decide +kernel
  obtain ⟨tr, s, hr, hobs⟩ := replay_observed hreplay
  simp only [Prod.mk.injEq, decide_eq_true_eq] at hobs
  obtain ⟨hscore, hpaid, hset⟩ := hobs
  have hrun : Run (Step .sample) sampleStart tr s := run_of_replay (by decide +kernel) hr
  exact ⟨tr, s, score_exact hrun sampleStart_deployed hset, hscore, hpaid⟩

end StepFi.Protocol

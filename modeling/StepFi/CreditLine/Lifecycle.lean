import StepFi.CreditLine.Runs

/-!
# The life of a loan

`Revision` says what a step can do to a stored loan, `Step.revision` that it can
do nothing else. From it come the order in which a loan passes through its
statuses, the terms that never change (`Evolved`), and which loans can be
enforced once they are active (`Loan.Enforceable`).
-/

namespace StepFi.CreditLine

open Lib

variable {W : Type} {c : Clients W} {env : Env} {call : Call} {s s' t : State W} {l : Label W}
variable {tr : List (State W × Label W)} {id : Nat} {old new loan : Loan}

/-! ## What a step does to a loan -/

/-- The schedule `approve_loan` asks for: not empty, and due after `now`. -/
structure DueAfter (now : Nat) (schedule : List RepaymentInstallment) : Prop where
  nonempty : schedule ≠ []
  later : ∀ i ∈ schedule, now < i.dueDate

theorem dueAfter_iff {now : Nat} {schedule : List RepaymentInstallment} :
    DueAfter now schedule ↔ schedule ≠ [] ∧ ∀ i ∈ schedule, now < i.dueDate :=
  ⟨fun h => ⟨h.nonempty, h.later⟩, fun h => ⟨h.1, h.2⟩⟩

instance (now : Nat) : DecidablePred (DueAfter now) :=
  fun _ => decidable_of_iff _ dueAfter_iff.symm

/-- What a step can do to the stored loan `id`: the record it leaves, by the call
made. -/
inductive Revision (id : Nat) (old : Loan) : Label W → Loan → Prop
  | keep (l : Label W) : Revision id old l old
  | approve (env : Env) : old.status = .pending → DueAfter env.timestamp old.repaymentSchedule →
      Revision id old (.call env (.approveLoan id))
        { old with status := .active, fundedAt := env.timestamp }
  | cancel (env : Env) (caller : Address) : old.status = .pending →
      Revision id old (.call env (.cancelLoan caller id)) { old with status := .cancelled }
  | accrue (env : Env) : old.status = .active →
      Revision id old (.call env (.applyLateFees id)) (old.accrued env.timestamp)
  | repay (env : Env) (amount : Int) : old.status = .active →
      Revision id old (.call env (.repayLoan old.borrower id amount))
        ((old.accrued env.timestamp).repaid amount old.repaymentSchedule)
  | repayInstallment (env : Env) (index : Nat) (amount : Int) : old.status = .active →
      checkInstallment index old = .ok () →
      Revision id old (.call env (.repayInstallment old.borrower id index amount))
        ((old.accrued env.timestamp).repaid amount
          (markInstallment env.timestamp index old.repaymentSchedule))
  | forfeit (env : Env) : old.status = .active →
      Revision id old (.call env (.markDefaulted id)) { old with status := .defaulted }

/-- The due dates an approval checks. -/
theorem approveLoan_due {approved : Loan}
    (h : approveLoan c env old.loanId s = .ok (approved, s'))
    (hold : s.line.book.loan old.loanId = some old) :
    DueAfter env.timestamp old.repaymentSchedule := by
  simp only [approveLoan, bind_ok, ensure_ok, exists_const, readLoan_ok, hold,
    Option.some.injEq] at h
  obtain ⟨_, -, _, -, _, -, _, rfl, -, hne, hdue, -⟩ := h
  constructor
  · exact hne
  · intro i hi
    have := hdue i hi
    omega

theorem repayInstallment_unpaid {borrower : Address} {index : Nat} {amount r : Int}
    (hb : s.line.book.Sound)
    (h : repayInstallment c env borrower old.loanId index amount s = .ok (r, s'))
    (hold : s.line.book.loan old.loanId = some old) : checkInstallment index old = .ok () := by
  obtain ⟨-, loan, hloan, -, -, hcheck, -⟩ := (settle_ok hb).mp h
  rw [hold, Option.some.injEq] at hloan
  subst hloan
  exact hcheck

/-- Writing another record keeps this one; writing this one leaves what was
written. -/
theorem loan_written {b : Book} (hold : b.loan id = some old) (written : Loan) (change : Int) :
    id ≠ written.loanId ∧ (b.revise written change).loan id = some old ∨
      id = written.loanId ∧ (b.revise written change).loan id = some written := by
  by_cases hid : id = written.loanId
  · subst hid
    exact .inr ⟨rfl, Function.update_self ..⟩
  · refine .inl ⟨hid, ?_⟩
    show Function.update b.loan written.loanId (some written) id = some old
    rw [Function.update_of_ne hid, hold]

/-- No step removes a loan, and each leaves it as `Revision` says. -/
theorem Step.revision (hb : s.line.book.Sound) (h : Step c s l s')
    (hold : s.line.book.loan id = some old) :
    ∃ new, s'.line.book.loan id = some new ∧ Revision id old l new := by
  cases l with
  | world w =>
    cases h
    exact ⟨old, hold, .keep _⟩
  | call env call =>
    obtain ⟨e, he⟩ := exec_effect hb h
    rw [he.book]
    obtain rfl := hb.keyed id old hold
    -- Another loan's entry keeps this one; its own entry found `old`.
    have entry : ∀ (record written : Loan) (change : Int), written.loanId = record.loanId →
        s.line.book.loan record.loanId = some record →
        (record = old → Revision old.loanId old (.call env call : Label W) written) →
        ∃ new, (s.line.book.revise written change).loan old.loanId = some new ∧
          Revision old.loanId old (.call env call : Label W) new := by
      intro record written change hkey hstored hown
      rcases loan_written hold written change with ⟨-, hsame⟩ | ⟨hid, hnew⟩
      · exact ⟨old, hsame, .keep _⟩
      · rw [← hkey, ← hid, hold, Option.some.injEq] at hstored
        exact ⟨written, hnew, hown hstored.symm⟩
    have hrecords := he.records
    cases he.valid with
    | idle => exact ⟨old, hold, .keep _⟩
    | @issue loan hfresh =>
      rcases loan_written hold loan
        (if loan.status = .active then loan.remainingBalance else 0) with ⟨-, hsame⟩ | ⟨hkey, -⟩
      · exact ⟨old, hsame, .keep _⟩
      · have := Finset.mem_Icc.mp (hb.mem hold)
        omega
    | @activate loan now hstored hpending =>
      refine entry loan _ _ rfl hstored ?_
      rintro rfl
      cases hrecords
      obtain ⟨⟨approved, s₁⟩, h₁, -⟩ := map_ok.mp h
      exact .approve env hpending (approveLoan_due h₁ hstored)
    | @cancel loan hstored hpending =>
      refine entry loan _ _ rfl hstored ?_
      rintro rfl
      cases hrecords
      exact .cancel env _ hpending
    | @accrue loan now hstored hactive =>
      refine entry loan _ _ rfl hstored ?_
      rintro rfl
      cases hrecords
      exact .accrue env hactive
    | @repay loan now amount schedule hstored hactive =>
      refine entry loan _ _ rfl hstored ?_
      rintro rfl
      cases hrecords with
      | repayLoan =>
        exact .repay env _ hactive
      | repayInstallment index =>
        obtain ⟨⟨r, s₁⟩, h₁, -⟩ := map_ok.mp h
        have hcheck := repayInstallment_unpaid hb h₁ hstored
        exact .repayInstallment env _ _ hactive hcheck
    | @forfeit loan hstored hactive =>
      refine entry loan _ _ rfl hstored ?_
      rintro rfl
      cases hrecords
      exact .forfeit env hactive

/-! ## What never changes -/

/-- What is agreed when a loan is created. -/
structure Terms where
  loanId : Nat
  borrower : Address
  vendor : Address
  totalAmount : Int
  guaranteeAmount : Int
  interestRateBps : Nat
  interestAmount : Int
  serviceFeeAmount : Int
  loanType : LoanType
  createdAt : Nat

def Loan.terms (loan : Loan) : Terms where
  loanId := loan.loanId
  borrower := loan.borrower
  vendor := loan.vendor
  totalAmount := loan.totalAmount
  guaranteeAmount := loan.guaranteeAmount
  interestRateBps := loan.interestRateBps
  interestAmount := loan.interestAmount
  serviceFeeAmount := loan.serviceFeeAmount
  loanType := loan.loanType
  createdAt := loan.createdAt

def LoanStatus.Closed (status : LoanStatus) : Prop :=
  status = .paid ∨ status = .defaulted ∨ status = .cancelled

/-- An installment later on: due at the same time, and paid for good. -/
structure RepaymentInstallment.Kept (x y : RepaymentInstallment) : Prop where
  dueDate : y.dueDate = x.dueDate
  paid : x.paid = true → y.paid = true ∧ y.paidAt = x.paidAt

/-- A schedule later on, installment by installment. -/
structure ScheduleKept (xs ys : List RepaymentInstallment) : Prop where
  length : ys.length = xs.length
  installment : ∀ (i : Nat) (x : RepaymentInstallment), xs[i]? = some x →
    ∃ y, ys[i]? = some y ∧ x.Kept y

theorem ScheduleKept.refl (xs : List RepaymentInstallment) : ScheduleKept xs xs where
  length := rfl
  installment := fun _ x hx => ⟨x, hx, rfl, fun hp => ⟨hp, rfl⟩⟩

theorem ScheduleKept.trans {xs ys zs : List RepaymentInstallment} (h : ScheduleKept xs ys)
    (h' : ScheduleKept ys zs) : ScheduleKept xs zs where
  length := h'.length.trans h.length
  installment := by
    intro i x hx
    obtain ⟨y, hy, hxy⟩ := h.installment i x hx
    obtain ⟨z, hz, hyz⟩ := h'.installment i y hy
    refine ⟨z, hz, hyz.dueDate.trans hxy.dueDate, ?_⟩
    intro hp
    obtain ⟨hpy, hty⟩ := hxy.paid hp
    obtain ⟨hpz, htz⟩ := hyz.paid hpy
    exact ⟨hpz, htz.trans hty⟩

/-- Due dates survive in a kept schedule. -/
theorem DueAfter.kept {now : Nat} {xs ys : List RepaymentInstallment} (h : DueAfter now xs)
    (hk : ScheduleKept xs ys) : DueAfter now ys where
  nonempty := by
    intro he
    have hlen := hk.length
    rw [he] at hlen
    exact h.nonempty (List.length_eq_zero_iff.mp hlen.symm)
  later := by
    intro y hy
    obtain ⟨i, hi, rfl⟩ := List.getElem_of_mem hy
    have hi' : i < xs.length := hk.length ▸ hi
    obtain ⟨z, hz, hkept⟩ := hk.installment i xs[i] (List.getElem?_eq_getElem hi')
    rw [List.getElem?_eq_getElem hi, Option.some.injEq] at hz
    rw [hz, hkept.dueDate]
    exact h.later _ (List.getElem_mem hi')

/-- Paying an unpaid installment changes neither the others nor any due date. -/
theorem markInstallment_kept {now index : Nat}
    (h : checkInstallment index old = .ok ()) :
    ScheduleKept old.repaymentSchedule (markInstallment now index old.repaymentSchedule) where
  length := by simp [markInstallment]
  installment := by
    intro i x hx
    simp only [checkInstallment, bind_ok, demand_ok, ensure_ok] at h
    obtain ⟨installment, hget, hunpaid⟩ := h
    by_cases hi : index = i
    · subst hi
      rw [hx, Option.some.injEq] at hget
      subst hget
      refine ⟨{ x with paid := true, paidAt := now }, ?_, rfl, ?_⟩
      · simp [markInstallment, hx]
      · intro hp
        rw [hunpaid] at hp
        cases hp
    · exact ⟨x, by simp [markInstallment, hi, hx], rfl, fun hp => ⟨hp, rfl⟩⟩

/-- A loan's record later on. -/
structure Evolved (a b : Loan) : Prop where
  terms : b.terms = a.terms
  closed : a.status.Closed → b = a
  funded : a.status ≠ .pending → b.status ≠ .pending ∧ b.fundedAt = a.fundedAt
  schedule : ScheduleKept a.repaymentSchedule b.repaymentSchedule

theorem Evolved.refl (loan : Loan) : Evolved loan loan where
  terms := rfl
  closed := fun _ => rfl
  funded := fun h => ⟨h, rfl⟩
  schedule := .refl _

theorem Evolved.trans {a b d : Loan} (h : Evolved a b) (h' : Evolved b d) : Evolved a d where
  terms := h'.terms.trans h.terms
  closed := by
    intro hc
    have hb := h.closed hc
    subst hb
    exact h'.closed hc
  funded := by
    intro hp
    obtain ⟨hb, hf⟩ := h.funded hp
    obtain ⟨hd, hf'⟩ := h'.funded hb
    exact ⟨hd, hf'.trans hf⟩
  schedule := h.schedule.trans h'.schedule

/-- An open loan is not closed. -/
theorem not_closed {a : Loan} (h : a.status = .pending ∨ a.status = .active) :
    ¬a.status.Closed := by
  rintro (hc | hc | hc) <;> rcases h with h | h <;> simp [h] at hc

theorem Revision.evolved (h : Revision id old l new) : Evolved old new := by
  cases h with
  | keep => exact .refl old
  | approve env hpending =>
    exact ⟨rfl, fun hc => absurd hc (not_closed (.inl hpending)), fun hne => absurd hpending hne,
      .refl _⟩
  | cancel env caller hpending =>
    exact ⟨rfl, fun hc => absurd hc (not_closed (.inl hpending)), fun hne => absurd hpending hne,
      .refl _⟩
  | accrue env hactive =>
    exact ⟨rfl, fun hc => absurd hc (not_closed (.inr hactive)), fun hne => ⟨hne, rfl⟩, .refl _⟩
  | repay env amount hactive =>
    refine ⟨rfl, fun hc => absurd hc (not_closed (.inr hactive)), fun _ => ⟨?_, rfl⟩, .refl _⟩
    simp only [Loan.repaid]
    split <;> decide
  | repayInstallment env index amount hactive hcheck =>
    refine ⟨rfl, fun hc => absurd hc (not_closed (.inr hactive)), fun _ => ⟨?_, rfl⟩,
      markInstallment_kept hcheck⟩
    simp only [Loan.repaid]
    split <;> decide
  | forfeit env hactive =>
    exact ⟨rfl, fun hc => absurd hc (not_closed (.inr hactive)), fun _ => ⟨by simp, rfl⟩, .refl _⟩

theorem Run.evolved (hb : s.line.book.Sound) (h : Run (Step c) s tr t)
    (hold : s.line.book.loan id = some old) :
    t.line.book.Sound ∧ ∃ new, t.line.book.loan id = some new ∧ Evolved old new := by
  induction h with
  | nil => exact ⟨hb, old, hold, .refl old⟩
  | snoc hr hstep ih =>
    obtain ⟨ht, mid, hmid, hevolved⟩ := ih
    obtain ⟨new, hnew, hrev⟩ := Step.revision ht hstep hmid
    exact ⟨Step.sound ht hstep, new, hnew, hevolved.trans hrev.evolved⟩

/-! ## The order of the statuses -/

/-- How one step can change the status of loan `id` and the time it was funded,
and by which call. -/
inductive StatusChange (id : Nat) (a b : Loan) : Label W → Prop
  | none (l : Label W) : b.status = a.status → b.fundedAt = a.fundedAt → StatusChange id a b l
  | approve (env : Env) : a.status = .pending → b.status = .active →
      b.fundedAt = env.timestamp → StatusChange id a b (.call env (.approveLoan id))
  | cancel (env : Env) (caller : Address) : a.status = .pending → b.status = .cancelled →
      b.fundedAt = a.fundedAt → StatusChange id a b (.call env (.cancelLoan caller id))
  | repay (env : Env) (amount : Int) : a.status = .active → b.status = .paid →
      b.remainingBalance = 0 → b.fundedAt = a.fundedAt →
      StatusChange id a b (.call env (.repayLoan a.borrower id amount))
  | repayInstallment (env : Env) (index : Nat) (amount : Int) : a.status = .active →
      b.status = .paid → b.remainingBalance = 0 → b.fundedAt = a.fundedAt →
      StatusChange id a b (.call env (.repayInstallment a.borrower id index amount))
  | markDefaulted (env : Env) : a.status = .active → b.status = .defaulted →
      b.fundedAt = a.fundedAt → StatusChange id a b (.call env (.markDefaulted id))

/-- A payment leaves an active loan active, or brings its balance to `0`. -/
theorem repaid_status (a : Loan) (amount : Int) (schedule : List RepaymentInstallment) :
    (a.repaid amount schedule).status = .active ∨
      (a.repaid amount schedule).status = .paid ∧
        (a.repaid amount schedule).remainingBalance = 0 := by
  by_cases hfull : a.remainingBalance = amount
  · refine .inr ⟨if_pos hfull, ?_⟩
    show a.remainingBalance - amount = 0
    omega
  · exact .inl (if_neg hfull)

theorem Revision.statusChange (h : Revision id old l new) : StatusChange id old new l := by
  cases h with
  | keep => exact .none _ rfl rfl
  | approve env hpending => exact .approve env hpending rfl rfl
  | cancel env caller hpending => exact .cancel env caller hpending rfl rfl
  | accrue env hactive => exact .none _ rfl rfl
  | repay env amount hactive =>
    rcases repaid_status (old.accrued env.timestamp) amount old.repaymentSchedule with h | ⟨h, h0⟩
    · exact .none _ (h.trans hactive.symm) rfl
    · exact .repay env amount hactive h h0 rfl
  | repayInstallment env index amount hactive =>
    rcases repaid_status (old.accrued env.timestamp) amount
      (markInstallment env.timestamp index old.repaymentSchedule) with h | ⟨h, h0⟩
    · exact .none _ (h.trans hactive.symm) rfl
    · exact .repayInstallment env index amount hactive h h0 rfl
  | forfeit env hactive => exact .markDefaulted env hactive rfl rfl

/-- The life of any loan from any moment on. A step changes its status only from
pending to active by an approval, to cancelled by a cancellation, from active to
paid by a payment of all that remains, and to defaulted; over any run a closed
record is final, the agreed terms stay, the funding time stays from the
activation on, and the schedule keeps its due dates and its paid installments. -/
theorem lifecycle_one_way (hs : Reachable Deployed (Step c) s)
    (hloan : readLoan s.line id = .ok loan) :
    (∀ l s', Step c s l s' → ∃ loan', readLoan s'.line id = .ok loan' ∧
      StatusChange id loan loan' l) ∧
    (∀ tr t, Run (Step c) s tr t → ∃ loan', readLoan t.line id = .ok loan' ∧
      Evolved loan loan') := by
  have hb := sound_of_reachable hs
  have hold := readLoan_ok.mp hloan
  constructor
  · intro l s' hstep
    obtain ⟨new, hnew, hrev⟩ := Step.revision hb hstep hold
    exact ⟨new, readLoan_ok.mpr hnew, hrev.statusChange⟩
  · intro tr t hrun
    obtain ⟨-, new, hnew, hevolved⟩ := Run.evolved hb hrun hold
    exact ⟨new, readLoan_ok.mpr hnew, hevolved⟩

/-- Borrower `21` takes a loan, pays part of it, is charged two days and pays
the rest. -/
theorem lifecycle_one_way_sample : ∃ a b : Loan, a.status = .active ∧ b.status = .paid ∧
    Evolved a b := by
  let later : List (Label Unit) := sampleLabels.drop 2 ++
    [.call (Env.signedBy [21] 174800) (.repayLoan 21 1 777)]
  have hrun : (replay (take .granting) sampleStart (sampleLabels.take 2)).toOption.map
      (fun r => ((readLoan r.2.line 1).toOption.map (·.status),
        (replay (take .granting) r.2 later).toOption.map
          fun q => (readLoan q.2.line 1).toOption.map (·.status)))
        = some (some .active, some (some .paid)) := by
    decide +kernel
  obtain ⟨_, s, hreach, hs⟩ :=
    Reachable.of_replay (I := Deployed) (R := Step .granting) hrun rfl fun _ _ _ h => h
  obtain ⟨hbefore, hlater⟩ := Prod.mk.injEq .. ▸ hs
  obtain ⟨a, ha, hactive⟩ := toOption_map_some.mp hbefore
  obtain ⟨tr', t, hr', ht⟩ := replay_observed hlater
  obtain ⟨b, hb, hpaid⟩ := toOption_map_some.mp ht
  obtain ⟨b', hb', hevolved⟩ := (lifecycle_one_way hreach ha).2 tr' t
    (Run.of_replay (fun _ _ _ _ h => h) hr')
  obtain rfl := Except.ok.inj (hb.symm.trans hb')
  exact ⟨a, b, hactive, hpaid, hevolved⟩

/-! ## Loans that can be enforced -/

/-- A loan that is new after a step was created by it. -/
theorem Step.issued (hb : s.line.book.Sound) (h : Step c s l s')
    (hnone : s.line.book.loan id = none) (hnew : s'.line.book.loan id = some new) :
    ∃ env r, new.Issued r env.timestamp ∧
      (l = .call env (.createLoan r) ∧ new.status = .active ∧ new.fundedAt = env.timestamp ∨
        l = .call env (.requestLoan r) ∧ new.status = .pending) := by
  cases l with
  | world w =>
    cases h
    rw [hnone] at hnew
    cases hnew
  | call env call =>
    have hkey := (Step.sound hb h).keyed id new hnew
    obtain ⟨e, he⟩ := exec_effect hb h
    rw [he.book] at hnew
    rcases Event.loan_apply hnew with hrecord | hold
    · rcases he.valid.rewrites hrecord with rfl | ⟨old, hold, -⟩
      · cases he.records with
        | createLoan hissued hactive hfunded =>
          exact ⟨env, _, hissued, .inl ⟨rfl, hactive, hfunded⟩⟩
        | requestLoan hissued hpending => exact ⟨env, _, hissued, .inr ⟨rfl, hpending⟩⟩
      · rw [hkey, hnone] at hold
        cases hold
    · rw [hnone] at hold
      cases hold

/-- An active loan whose every installment falls due after it was funded. -/
def Loan.Enforceable (loan : Loan) : Prop :=
  loan.status = .active → DueAfter loan.fundedAt loan.repaymentSchedule

def Enforceable (s : State W) : Prop :=
  ∀ id loan, readLoan s.line id = .ok loan → loan.Enforceable

/-- A `create_loan` with a schedule that `approve_loan` would accept. -/
def OpensInFuture : Label W → Prop
  | .call env (.createLoan r) => DueAfter env.timestamp r.repaymentSchedule
  | _ => True

instance : DecidablePred (OpensInFuture (W := W)) := fun l => by
  unfold OpensInFuture
  split <;> infer_instance

theorem Revision.enforceable (h : Revision id old l new) (ho : old.Enforceable) :
    new.Enforceable := by
  intro hactive
  cases h with
  | keep => exact ho hactive
  | approve env hpending hdue => exact hdue
  | cancel => cases hactive
  | accrue env hstatus => exact ho hstatus
  | repay env amount hstatus => exact ho hstatus
  | repayInstallment env index amount hstatus hcheck =>
    exact (ho hstatus).kept (markInstallment_kept hcheck)
  | forfeit => cases hactive

/-- A step out of a state whose active loans can be enforced leads to one exactly
when it does not open a loan that cannot. -/
theorem Step.enforceable_iff (hb : s.line.book.Sound) (he : Enforceable s) (h : Step c s l s') :
    Enforceable s' ↔ OpensInFuture l := by
  constructor
  · intro he'
    unfold OpensInFuture
    split
    · rename_i env r
      obtain ⟨⟨id, s₁⟩, h₁, rfl⟩ := map_ok.mp h
      obtain ⟨loan, hissued, hactive, hfunded, -, -, -, hbook, -⟩ := createLoan_spec h₁
      have hread : s₁.line.book.loan loan.loanId = some loan := by
        rw [hbook]
        exact Function.update_self ..
      have hdue := he' loan.loanId loan (readLoan_ok.mpr hread) hactive
      rwa [hfunded, hissued.schedule] at hdue
    · trivial
  · intro hopens id loan hread
    rw [readLoan_ok] at hread
    cases hold : s.line.book.loan id with
    | some old =>
      obtain ⟨new, hnew, hrev⟩ := Step.revision hb h hold
      rw [hread, Option.some.injEq] at hnew
      subst hnew
      exact hrev.enforceable (he id old (readLoan_ok.mpr hold))
    | none =>
      obtain ⟨env, r, hissued, ⟨rfl, -, hfunded⟩ | ⟨-, hpending⟩⟩ := Step.issued hb h hold hread
      · intro _
        rw [hfunded, hissued.schedule]
        exact hopens
      · intro hactive
        rw [hpending] at hactive
        cases hactive

/-- Accrual charges for no time before every installment was due. -/
theorem DueAfter.lt_accrualStart {fundedAt now since : Nat}
    (h : DueAfter fundedAt loan.repaymentSchedule)
    (hsince : overdueSince now loan.repaymentSchedule = some since) :
    fundedAt < accrualStart loan since := by
  obtain ⟨⟨⟨i, hi, rfl⟩, -⟩, -⟩ := overdueSince_eq_some.mp hsince
  rw [accrualStart_eq_max]
  exact Nat.lt_of_lt_of_le (h.later i hi) (Nat.le_max_left ..)

/-- The date checks of a default pass once the grace period after the last due
date is over. -/
theorem graceEnded_iff {now : Nat} {p : Storage} {w : W} (hnow : now < 2 ^ 64)
    (hne : loan.repaymentSchedule ≠ []) :
    (∃ ends, graceEndsAt c now p w loan = .ok ends ∧ ends < now) ↔
      lastDueDate loan + (getProtocolParameters c p w).gracePeriodSeconds < now := by
  obtain ⟨last, hlast⟩ := Option.isSome_iff_exists.mp (List.getLast?_isSome.mpr hne)
  simp only [graceEndsAt, lastDueDate, hlast, bind_ok, demand_ok, Option.some.injEq, ensure_ok,
    exists_const, addU64_ok, Option.map_some, Option.getD_some]
  constructor
  · rintro ⟨ends, ⟨_, rfl, -, -, rfl⟩, hlt⟩
    exact hlt
  · intro hlt
    exact ⟨_, ⟨last, rfl, by omega, by omega, rfl⟩, hlt⟩

/-- All active loans of a run can be enforced exactly when every `create_loan`
asked for a schedule that falls due later. Then the date checks of a default pass at
exactly the ledger times after the last due date and the grace period, and no loan is
charged for time before it was funded. -/
theorem active_enforceable_iff {s₀ : State W} (h : Run (Step c) s₀ tr s) (h0 : Deployed s₀) :
    (AllStates Enforceable tr s ↔ ∀ x ∈ tr, OpensInFuture x.2) ∧
    ((∀ x ∈ tr, OpensInFuture x.2) → ∀ id loan, readLoan s.line id = .ok loan →
      loan.status = .active →
      (∀ now p w, now < 2 ^ 64 → ((∃ ends, graceEndsAt c now p w loan = .ok ends ∧ ends < now) ↔
        lastDueDate loan + (getProtocolParameters c p w).gracePeriodSeconds < now)) ∧
      ∀ now since, overdueSince now loan.repaymentSchedule = some since →
        loan.fundedAt < accrualStart loan since) := by
  have hstart : Enforceable s₀ := by
    intro id loan hread
    rw [h0] at hread
    cases hread
  have hiff : AllStates Enforceable tr s ↔ ∀ x ∈ tr, OpensInFuture x.2 :=
    h.states_iff_steps (C := fun _ l => OpensInFuture l) h0 hstart
      fun _ _ _ hr he hstep => Step.enforceable_iff (sound_of_reachable hr) he hstep
  refine ⟨hiff, ?_⟩
  intro hopens id loan hread hactive
  have hdue := (hiff.mpr hopens).2 id loan hread hactive
  constructor
  · intro now p w hnow
    exact graceEnded_iff hnow hdue.nonempty
  · intro now since hsince
    exact hdue.lt_accrualStart hsince

theorem active_enforceable_iff_sample : ∃ (s : State Unit) (loan : Loan),
    readLoan s.line 1 = .ok loan ∧ loan.status = .active ∧ loan.fundedAt = 100 ∧
    ∃ ends, graceEndsAt .granting 2001 s.line s.world loan = .ok ends ∧ ends < 2001 := by
  have hrun : (replay (take .granting) sampleStart sampleLabels).toOption.map
      (fun r => ((readLoan r.2.line 1).toOption.map fun loan => (loan.status, loan.fundedAt,
        lastDueDate loan, (getProtocolParameters .granting r.2.line r.2.world).gracePeriodSeconds),
        decide (∀ x ∈ r.1, OpensInFuture x.2))) = some (some (.active, 100, 2000, 0), true) := by
    decide +kernel
  obtain ⟨tr, s, hr, hs⟩ := replay_observed hrun
  obtain ⟨hloan, hopens⟩ := Prod.mk.injEq .. ▸ hs
  obtain ⟨loan, hread, hfields⟩ := toOption_map_some.mp hloan
  simp only [Prod.mk.injEq] at hfields
  obtain ⟨hactive, hfunded, hlast, hgrace⟩ := hfields
  have hrun' : Run (Step .granting) sampleStart tr s := Run.of_replay (fun _ _ _ _ h => h) hr
  obtain ⟨hdates, -⟩ := (active_enforceable_iff hrun' rfl).2 (by simpa using hopens) 1 loan hread
    hactive
  refine ⟨s, loan, hread, hactive, hfunded, (hdates 2001 s.line s.world (by decide)).mpr ?_⟩
  rw [hlast, hgrace]
  decide

/-- `create_loan` opens loans with no installment, and with one that fell due
before the loan was funded. -/
theorem create_loan_skips_due_dates :
    ¬(∀ (s : State Unit) id loan, Reachable Deployed (Step .granting) s →
      readLoan s.line id = .ok loan → loan.status = .active → loan.repaymentSchedule ≠ []) ∧
    ¬(∀ (s : State Unit) id loan, Reachable Deployed (Step .granting) s →
      readLoan s.line id = .ok loan → loan.status = .active →
      ∀ i ∈ loan.repaymentSchedule, loan.fundedAt < i.dueDate) := by
  have hrun : (replay (take .granting) sampleStart [
      .call (Env.signedBy [10] 50) (.initializeContract 10 3 4 2 6),
      .call (Env.signedBy [21] 2000000) (.createLoan ⟨21, 30, 1000, 200, [], .standard⟩),
      .call (Env.signedBy [22] 2000000)
        (.createLoan ⟨22, 30, 1000, 200, [⟨1, 1070, false, 0⟩], .standard⟩)]).toOption.map
      (fun r => ((readLoan r.2.line 1).toOption.map fun loan =>
          (loan.status, loan.repaymentSchedule),
        (readLoan r.2.line 2).toOption.map fun loan =>
          (loan.status, loan.fundedAt, loan.repaymentSchedule)))
        = some (some (.active, []), some (.active, 2000000, [⟨1, 1070, false, 0⟩])) := by
    decide +kernel
  obtain ⟨_, s, hreach, hs⟩ :=
    Reachable.of_replay (I := Deployed) (R := Step .granting) hrun rfl fun _ _ _ h => h
  obtain ⟨hfirst, hsecond⟩ := Prod.mk.injEq .. ▸ hs
  constructor
  · intro hall
    obtain ⟨loan, hread, hfields⟩ := toOption_map_some.mp hfirst
    obtain ⟨hactive, hempty⟩ := Prod.mk.injEq .. ▸ hfields
    exact hall s 1 loan hreach hread hactive hempty
  · intro hall
    obtain ⟨loan, hread, hfields⟩ := toOption_map_some.mp hsecond
    simp only [Prod.mk.injEq] at hfields
    obtain ⟨hactive, hfunded, hschedule⟩ := hfields
    have hlt := hall s 2 loan hreach hread hactive ⟨1, 1070, false, 0⟩ (by simp [hschedule])
    rw [hfunded] at hlt
    exact absurd hlt (by decide)

end StepFi.CreditLine

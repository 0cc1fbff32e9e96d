import StepFi.CreditLine.Accrual

/-!
# Accruals without repayment

Anyone may accrue a loan's late fees, and a fee is charged on the balance of the
moment, earlier fees included. How much has been charged by some time therefore
depends on when the accruals fell: `late_fees_metered` says how, and within which
bounds.
-/

namespace StepFi.CreditLine

open Lib

variable {W : Type} {c : Clients W} {env : Env} {s s' u : State W} {l : Label W}
variable {tr : List (State W × Label W)} {id now : Nat} {old new loan : Loan}

/-- A run that repays nothing on the loan `id` and last accrues its fees at
`now`. -/
structure Poked (c : Clients W) (id : Nat) (s : State W) (tr : List (State W × Label W))
    (now : Nat) (u : State W) : Prop where
  run : Run (Step c) s tr u
  unpaid : ∀ x ∈ tr, repaidIn id x.2 = 0
  timely : ∀ time ∈ accrualTimes id tr, time ≤ now
  last : (accrualTimes id tr).getLast? = some now

/-- The meter of a loan that stood at `loan`, after accruals on the given days. -/
def Loan.charges (loan : Loan) (days : List Nat) : Meter :=
  Meter.charges lateFeeBpsPerDay bpsDenominator ⟨loan.remainingBalance, 0⟩ days

/-- What accruals on the given days, of `fees` in all, make of `loan`. -/
structure Compounded (loan : Loan) (days : List Nat) (fees : Int) (new : Loan) : Prop where
  schedule : new.repaymentSchedule = loan.repaymentSchedule
  metered : Metered loan.lateFeeAccrualTimestamp (loan.charges days) new
  remaining : new.remainingBalance = loan.remainingBalance + fees
  lateFees : new.lateFeesOutstanding = loan.lateFeesOutstanding + fees

theorem Compounded.start (loan : Loan) : Compounded loan [] 0 loan :=
  ⟨rfl, Metered.start loan, (Int.add_zero _).symm, (Int.add_zero _).symm⟩

theorem Compounded.accrued {days : List Nat} {fees : Int} (h : Compounded loan days fees old) :
    Compounded loan (days ++ [daysOverdue now loan]) (fees + lateFee now old)
      (old.accrued now) where
  schedule := h.schedule
  metered := by
    have hmeter : Metered _ _ (old.accrued now) := h.metered.accrued
    rw [h.schedule, daysFrom_cursor] at hmeter
    rwa [Loan.charges, Meter.charges_snoc]
  remaining := by
    show old.remainingBalance + lateFee now old = _
    rw [h.remaining, Int.add_assoc]
  lateFees := by
    show old.lateFeesOutstanding + lateFee now old = _
    rw [h.lateFees, Int.add_assoc]

/-- The days of a run's accruals, counted from the loan it started with. -/
def accrualDays (id : Nat) (loan : Loan) (tr : List (State W × Label W)) : List Nat :=
  (accrualTimes id tr).map fun time => daysOverdue time loan

theorem Recount.compounded (hr : Recount id old l new) (hunpaid : repaidIn id l = 0)
    (h : Compounded loan (accrualDays id loan tr) (accruedOn id tr) old)
    (hb : s.line.book.Sound) (hold : s.line.book.loan id = some old) :
    Compounded loan (accrualDays id loan (tr ++ [(s, l)])) (accruedOn id (tr ++ [(s, l)])) new := by
  cases hr with
  | still htime _ hschedule hcursor hremaining hfees =>
    obtain ⟨-, hfee⟩ := moved_of_no_accrual (s := s) htime
    have hmeter := h.metered.congr (congrArg _ hschedule) hcursor
    rw [hremaining, h.metered.balance] at hmeter
    have hdays : accrualDays id loan (tr ++ [(s, l)]) = accrualDays id loan tr := by
      rw [accrualDays, accrualTimes_snoc, htime]
      exact congrArg _ (List.append_nil _)
    rw [hdays, accruedOn_snoc, hfee, Int.add_zero]
    exact ⟨hschedule.trans h.schedule, hmeter, hremaining.trans h.remaining,
      hfees.trans h.lateFees⟩
  | @accrue now htime _ hfits =>
    obtain ⟨-, hfee⟩ := moved_of_accrual hb hold htime hfits
    have hdays : accrualDays id loan (tr ++ [(s, l)]) =
        accrualDays id loan tr ++ [daysOverdue now loan] := by
      rw [accrualDays, accrualTimes_snoc, htime, List.map_append]
      rfl
    rw [hdays, accruedOn_snoc, hfee]
    exact h.accrued
  | repay _ hpaid hpos =>
    omega

theorem Run.compounded (hb : s.line.book.Sound) (h : Run (Step c) s tr u)
    (hunpaid : ∀ x ∈ tr, repaidIn id x.2 = 0) (hloan : s.line.book.loan id = some loan) :
    u.line.book.Sound ∧ ∃ new, u.line.book.loan id = some new ∧
      Compounded loan (accrualDays id loan tr) (accruedOn id tr) new := by
  induction h with
  | nil => exact ⟨hb, loan, hloan, .start loan⟩
  | @snoc tr t u l _ hstep ih =>
    obtain ⟨hpre, hlast⟩ := List.forall_mem_append.mp hunpaid
    obtain ⟨ht, old, hold, hcompounded⟩ := ih hpre
    obtain ⟨new, hnew, hr⟩ := Step.recount ht hstep hold
    have hunpaid := hlast _ (List.mem_singleton_self _)
    exact ⟨Step.sound ht hstep, new, hnew, hr.compounded hunpaid hcompounded ht hold⟩

theorem daysOverdue_mono {time : Nat} (h : time ≤ now) :
    daysOverdue time loan ≤ daysOverdue now loan := by
  cases hsince : overdueSince time loan.repaymentSchedule with
  | none =>
    simp only [daysOverdue, hsince]
    exact Nat.zero_le _
  | some since =>
    obtain ⟨hfirst, hpast⟩ := overdueSince_eq_some.mp hsince
    have hsince' : overdueSince now loan.repaymentSchedule = some since :=
      overdueSince_eq_some.mpr ⟨hfirst, by omega⟩
    rw [daysOverdue_eq hsince, daysOverdue_eq hsince']
    exact Nat.div_le_div_right (by omega)

/-- The debt of a borrower on whom nothing but accruals of one loan came. -/
theorem Run.accrued_debt (hb : s.line.book.Sound) (h : Run (Step c) s tr u)
    (honly : ∀ x ∈ tr, ∃ env, x.2 = .call env (.applyLateFees id))
    (hloan : s.line.book.loan id = some loan) :
    u.line.book.Sound ∧
      (∃ new, u.line.book.loan id = some new ∧ new.borrower = loan.borrower) ∧
      getUserActiveDebt u.line loan.borrower =
        getUserActiveDebt s.line loan.borrower + accruedOn id tr := by
  induction h with
  | nil => exact ⟨hb, ⟨loan, hloan, rfl⟩, (Int.add_zero _).symm⟩
  | @snoc tr t u l _ hstep ih =>
    obtain ⟨hpre, hlast⟩ := List.forall_mem_append.mp honly
    obtain ⟨ht, ⟨old, hold, hborrower⟩, hdebt⟩ := ih hpre
    obtain ⟨env, hl⟩ := hlast _ (List.mem_singleton_self _)
    obtain rfl : l = .call env (.applyLateFees id) := hl
    obtain ⟨found, hfound, -, hfits, hs⟩ := (applyLateFees_ok ht).mp hstep
    obtain rfl : found = old := Option.some.inj (hfound.symm.trans hold)
    have hid : found.loanId = id := ht.keyed _ _ hold
    have htime : (Label.call env (.applyLateFees id) : Label W).accrualTime id =
      some env.timestamp := if_pos rfl
    obtain ⟨-, hfee⟩ := moved_of_accrual ht hold htime hfits
    rw [accruedOn_snoc, hfee, ← Int.add_assoc, ← hdebt]
    refine ⟨Step.sound ht hstep, ?_⟩
    rcases hs with ⟨hzero, rfl⟩ | ⟨-, -, rfl⟩
    · exact ⟨⟨found, hold, hborrower⟩, by rw [hzero, Int.add_zero]⟩
    · refine ⟨⟨found.accrued env.timestamp, ?_, hborrower⟩, ?_⟩
      · rw [book_setLoan, ← hid]
        exact Function.update_self ..
      · rw [← hborrower]
        exact Function.update_self ..

section Charges

variable {before : List Nat} {n : Nat}

/-- One accrual charges `0.5 %` of the balance for each day. -/
theorem charges_single (n : Nat) (loan : Loan) : (loan.charges [n]).balance =
    loan.remainingBalance + loan.remainingBalance * lateFeeBpsPerDay * n / bpsDenominator :=
  Meter.charge_balance

theorem lt_charges (h0 : 0 ≤ loan.remainingBalance) (hbefore : ∀ x ∈ before, x ≤ n) :
    loan.remainingBalance * lateFeeBpsPerDay * n < bpsDenominator *
      ((loan.charges (before ++ [n])).balance - loan.remainingBalance + (before.length + 1)) :=
  Meter.lt_fees (by decide) (by decide) h0 (Nat.zero_le _) hbefore

theorem charges_le (h0 : 0 ≤ loan.remainingBalance) (hbefore : ∀ x ∈ before, x ≤ n) :
    (loan.charges (before ++ [n])).balance * bpsDenominator ^ n ≤
      loan.remainingBalance * (bpsDenominator + lateFeeBpsPerDay) ^ n := by
  have hall : ∀ x ∈ before ++ [n], x ≤ n :=
    List.forall_mem_append.mpr ⟨hbefore, fun x hx => (List.mem_singleton.mp hx).le⟩
  exact Meter.charges_balance_le (by decide) (by decide) h0 (Nat.zero_le _) hall

end Charges

/-- The last of a run's accruals has the most days behind it. -/
theorem Poked.days (hp : Poked c id s tr now u) (loan : Loan) :
    ∃ before, accrualDays id loan tr = before ++ [daysOverdue now loan] ∧
      before.length + 1 = (accrualTimes id tr).length ∧
      ∀ n ∈ before, n ≤ daysOverdue now loan := by
  obtain ⟨times, htimes⟩ := List.getLast?_eq_some_iff.mp hp.last
  refine ⟨times.map fun time => daysOverdue time loan, ?_, ?_, ?_⟩
  · rw [accrualDays, htimes, List.map_append]
    rfl
  · rw [htimes, List.length_map, List.length_append]
    rfl
  · intro n hn
    obtain ⟨time, htime, rfl⟩ := List.mem_map.mp hn
    refine daysOverdue_mono (hp.timely time ?_)
    rw [htimes]
    exact List.mem_append_left _ htime

/-- What accruals without repayment have charged by `now`, when the last was:
a function of the balance and of the days on which they fell, as each charges
the balance of its moment. In all it falls short of `0.5 %` of the balance a day
by less than one unit for each accrual, and is at most what charging on every day
would come to; a single accrual charges the days at once. -/
theorem late_fees_compound (h : Reachable Deployed (Step c) s)
    (hloan : readLoan s.line id = .ok loan) (hp : Poked c id s tr now u) :
    ∃ loan', readLoan u.line id = .ok loan' ∧
      loan'.lateFeesOutstanding = loan.lateFeesOutstanding + accruedOn id tr ∧
      loan'.remainingBalance = loan.remainingBalance + accruedOn id tr ∧
      loan'.remainingBalance = (loan.charges (accrualDays id loan tr)).balance ∧
      (∀ tr' u', Poked c id s tr' now u' → accrualDays id loan tr' = accrualDays id loan tr →
        accruedOn id tr' = accruedOn id tr) ∧
      loan.remainingBalance * lateFeeBpsPerDay * daysOverdue now loan <
        bpsDenominator * (accruedOn id tr + (accrualTimes id tr).length) ∧
      (loan.remainingBalance + accruedOn id tr) * bpsDenominator ^ daysOverdue now loan ≤
        loan.remainingBalance * (bpsDenominator + lateFeeBpsPerDay) ^ daysOverdue now loan ∧
      (accrualTimes id tr = [now] → accruedOn id tr = loan.remainingBalance * lateFeeBpsPerDay *
        daysOverdue now loan / bpsDenominator) ∧
      ((∀ x ∈ tr, ∃ env, x.2 = .call env (.applyLateFees id)) →
        getUserActiveDebt u.line loan.borrower =
          getUserActiveDebt s.line loan.borrower + accruedOn id tr) := by
  have hold := readLoan_ok.mp hloan
  have hb := sound_of_reachable h
  have h0 := (hb.loans _ _ hold).remaining_nonneg
  obtain ⟨-, new, hnew, hcompounded⟩ := Run.compounded hb hp.run hp.unpaid hold
  have hbalance := hcompounded.remaining
  have hmeter := hcompounded.metered.balance
  obtain ⟨before, hdays, hlength, hbefore⟩ := hp.days loan
  refine ⟨new, readLoan_ok.mpr hnew, hcompounded.lateFees, hbalance, hmeter, ?_, ?_, ?_, ?_, ?_⟩
  · intro tr' u' hp' hsame
    obtain ⟨-, new', -, hcompounded'⟩ := Run.compounded hb hp'.run hp'.unpaid hold
    have hbalance' := hcompounded'.remaining
    have hmeter' := hcompounded'.metered.balance
    rw [hsame] at hmeter'
    omega
  · have hlt := lt_charges h0 hbefore
    rw [← hdays, ← hmeter, hbalance, add_sub_cancel_left] at hlt
    rw [← hlength]
    exact hlt
  · have hle := charges_le h0 hbefore
    rwa [← hdays, ← hmeter, hbalance] at hle
  · intro hsingle
    have honce : accrualDays id loan tr = [daysOverdue now loan] := by
      rw [accrualDays, hsingle]
      rfl
    rw [honce, charges_single] at hmeter
    omega
  · intro honly
    exact (Run.accrued_debt hb hp.run honly hold).2.2

/-! ## Once or every day -/

/-- A loan of `1000` that falls due at `2000`. -/
def lentLabels : List (Label Unit) := sampleLabels.take 2

def pokes (times : List UInt64) : List (Label Unit) :=
  times.map fun time => .call (Env.signedBy [] time) (.applyLateFees 1)

/-- What the sample runs are seen by: what was repaid, the times of the accruals
and the fees of loan `1`. -/
def observePokes (q : List (State Unit × Label Unit) × State Unit) : Bool × List Nat × Option Int :=
  (decide (∀ x ∈ q.1, repaidIn 1 x.2 = 0), accrualTimes 1 q.1,
    (readLoan q.2.line 1).toOption.map (·.lateFeesOutstanding))

theorem poked_of_replay {s : State Unit} {ls : List (Label Unit)} {times : List Nat} {fees : Int}
    (h : (replay (take .granting) s ls).toOption.map observePokes = some (true, times, some fees))
    (htimely : ∀ time ∈ times, time ≤ now) (hlast : times.getLast? = some now) :
    ∃ (u : State Unit) (tr : List (State Unit × Label Unit)) (loan : Loan),
      Poked .granting 1 s tr now u ∧ readLoan u.line 1 = .ok loan ∧
        loan.lateFeesOutstanding = fees := by
  obtain ⟨tr, u, hr, hobs⟩ := replay_observed h
  simp only [observePokes, Prod.mk.injEq, decide_eq_true_eq] at hobs
  obtain ⟨hunpaid, rfl, hfees⟩ := hobs
  obtain ⟨loan, hread, hfees⟩ := toOption_map_some.mp hfees
  have hrun : Run (Step .granting) s tr u := Run.of_replay (fun _ _ _ _ h => h) hr
  exact ⟨u, tr, loan, ⟨hrun, hunpaid, htimely, hlast⟩, hread, hfees⟩

/-- Three days are charged one by one, `5.35` and a little more each. -/
theorem late_fees_compound_sample : ∃ (s u : State Unit) (tr : List (State Unit × Label Unit))
    (loan loan' : Loan), readLoan s.line 1 = .ok loan ∧ Poked .granting 1 s tr 261200 u ∧
      readLoan u.line 1 = .ok loan' ∧ loan'.lateFeesOutstanding = 15 ∧
      loan'.lateFeesOutstanding = loan.lateFeesOutstanding + accruedOn 1 tr := by
  have hrun : (replay (take .granting) sampleStart lentLabels).toOption.map (fun r =>
      ((readLoan r.2.line 1).toOption.map (·.status),
        (replay (take .granting) r.2 (pokes [88400, 174800, 261200])).toOption.map
          observePokes)) =
      some (some .active, some (true, [88400, 174800, 261200], some 15)) := by decide +kernel
  obtain ⟨_, s, hreach, hobs⟩ :=
    Reachable.of_replay (I := Deployed) (R := Step .granting) hrun rfl fun _ _ _ h => h
  obtain ⟨hloan, hpokes⟩ := Prod.mk.injEq .. ▸ hobs
  obtain ⟨loan, hread, -⟩ := toOption_map_some.mp hloan
  obtain ⟨u, tr, loan', hp, hread', hfees⟩ := @poked_of_replay 261200 _ _ _ _
    hpokes (by decide) rfl
  obtain ⟨found, hfound, hcharged, -⟩ := late_fees_compound hreach hread hp
  obtain rfl : found = loan' := Except.ok.inj (hfound.symm.trans hread')
  exact ⟨s, u, tr, loan, found, hread, hp, hread', hfees, hcharged⟩

set_option synthInstance.maxSize 400 in
/-- Charged day by day the three days come to `15`, and at once to `16`. -/
theorem late_fees_depend_on_accruals :
    ¬∀ (s u₁ u₂ : State Unit) (tr₁ tr₂ : List (State Unit × Label Unit)) (now : Nat)
      (loan loan₁ loan₂ : Loan), Reachable Deployed (Step .granting) s →
      readLoan s.line 1 = .ok loan → loan.status = .active → Poked .granting 1 s tr₁ now u₁ →
      Poked .granting 1 s tr₂ now u₂ → readLoan u₁.line 1 = .ok loan₁ →
      readLoan u₂.line 1 = .ok loan₂ → loan₁.lateFeesOutstanding = loan₂.lateFeesOutstanding := by
  intro hall
  have hrun : (replay (take .granting) sampleStart lentLabels).toOption.map (fun r =>
      ((readLoan r.2.line 1).toOption.map (·.status),
        (replay (take .granting) r.2 (pokes [88400, 174800, 261200])).toOption.map observePokes,
        (replay (take .granting) r.2 (pokes [261200])).toOption.map observePokes)) =
      some (some .active, some (true, [88400, 174800, 261200], some 15),
        some (true, [261200], some 16)) := by decide +kernel
  obtain ⟨_, s, hreach, hobs⟩ :=
    Reachable.of_replay (I := Deployed) (R := Step .granting) hrun rfl fun _ _ _ h => h
  simp only [Prod.mk.injEq] at hobs
  obtain ⟨hloan, hdaily, hlate⟩ := hobs
  obtain ⟨loan, hread, hactive⟩ := toOption_map_some.mp hloan
  obtain ⟨u₁, tr₁, loan₁, hp₁, hread₁, hfees₁⟩ := @poked_of_replay 261200 _ _ _ _
    hdaily (by decide) rfl
  obtain ⟨u₂, tr₂, loan₂, hp₂, hread₂, hfees₂⟩ := @poked_of_replay 261200 _ _ _ _
    hlate (by decide) rfl
  have hsame := hall s u₁ u₂ tr₁ tr₂ 261200 loan loan₁ loan₂ hreach hread hactive hp₁ hp₂ hread₁
    hread₂
  rw [hfees₁, hfees₂] at hsame
  exact absurd hsame (by decide)

end StepFi.CreditLine

import StepFi.CreditLine.Lifecycle

/-!
# Overdue schedules

What the calls read of a schedule when it is overdue. `mark_defaulted` goes by
the due date that stands last in the list, and no entry point orders the list;
late fees go by the earliest due date that has passed, whether its installment
is paid or not.
-/

namespace StepFi.CreditLine

open Lib

variable {W : Type} {c : Clients W} {env : Env} {s s' : State W}

/-! ## A schedule is stored as asked for -/

section Rescheduled

variable {schedule : List RepaymentInstallment} {p : Storage} {loan : Loan}

def Loan.rescheduled (schedule : List RepaymentInstallment) (loan : Loan) : Loan :=
  { loan with repaymentSchedule := schedule }

/-- The storage with every loan on another schedule. -/
def Storage.rescheduled (schedule : List RepaymentInstallment) (p : Storage) : Storage :=
  { p with loans := fun shard id => (p.loans shard id).map (Loan.rescheduled schedule) }

def LoanRequest.rescheduled (schedule : List RepaymentInstallment) (r : LoanRequest) :
    LoanRequest :=
  { r with repaymentSchedule := schedule }

theorem buildLoan_rescheduled {r : LoanRequest} {score : Nat} {status : LoanStatus} {w : W} :
    buildLoan c env (r.rescheduled schedule) score status (p.rescheduled schedule) w =
      (buildLoan c env r score status p w).map
        (Prod.map (Loan.rescheduled schedule) (Storage.rescheduled schedule)) := by
  unfold buildLoan
  refine bind_map fun _ => ?_
  refine bind_map fun _ => ?_
  refine bind_map fun interest => ?_
  refine bind_map fun serviceFee => ?_
  refine bind_map fun withInterest => ?_
  refine bind_map fun remaining => ?_
  refine bind_map fun nextDebt => ?_
  refine bind_map fun _ => ?_
  refine map_bind_of_eq (g := Prod.map id (Storage.rescheduled schedule)) ?_ fun next => rfl
  exact bind_map fun _ => rfl

theorem setLoan_rescheduled :
    setLoan (loan.rescheduled schedule) (p.rescheduled schedule) =
      (setLoan loan p).rescheduled schedule := by
  simp only [setLoan, Storage.rescheduled, Storage.mk.injEq, true_and, and_true]
  funext shard id
  by_cases hs : shard = loanShard loan.loanId
  · subst hs
    by_cases hi : id = loan.loanId
    · subst hi
      simp [Loan.rescheduled]
    · simp [Loan.rescheduled, hi]
  · simp [Loan.rescheduled, hs]

theorem writeLoan_rescheduled :
    writeLoan (loan.rescheduled schedule) (p.rescheduled schedule) =
      (writeLoan loan p).map (Storage.rescheduled schedule) := by
  have hnone : ((p.rescheduled schedule).loans (loanShard (loan.rescheduled schedule).loanId)
      (loan.rescheduled schedule).loanId).isNone =
    (p.loans (loanShard loan.loanId) loan.loanId).isNone := Option.isNone_map
  unfold writeLoan
  rw [setLoan_rescheduled]
  by_cases hnew : (p.loans (loanShard loan.loanId) loan.loanId).isNone = true
  · rw [if_pos (hnone.trans hnew), if_pos hnew]
    exact bind_map fun _ => rfl
  · rw [if_neg (hnone ▸ hnew), if_neg hnew]
    rfl

/-- `create_loan` neither checks nor orders the schedule it is given. -/
theorem createLoan_rescheduled (c : Clients W) (env : Env)
    (schedule : List RepaymentInstallment) (r : LoanRequest) (p : Storage) (w : W) :
    createLoan c env (r.rescheduled schedule) ⟨p.rescheduled schedule, w⟩ =
      (createLoan c env r ⟨p, w⟩).map
        fun (id, t) => (id, ⟨t.line.rescheduled schedule, t.world⟩) := by
  unfold createLoan
  refine bind_map fun _ => ?_
  refine bind_map fun _ => ?_
  refine bind_map fun _ => ?_
  refine bind_map fun _ => ?_
  refine bind_map fun score => ?_
  refine bind_map fun _ => ?_
  refine map_bind_of_eq (g := Storage.rescheduled schedule) (bind_map fun _ => rfl) fun p₁ => ?_
  refine map_bind_of_eq buildLoan_rescheduled fun built => ?_
  refine map_bind_of_eq (g := Storage.rescheduled schedule) (bind_map fun _ => rfl) fun p₂ => ?_
  have hwrite := @writeLoan_rescheduled schedule p₂ { built.1 with fundedAt := env.timestamp }
  refine map_bind_of_eq hwrite fun p₃ => ?_
  refine bind_map fun contribution => ?_
  exact bind_map fun w => rfl

end Rescheduled

/-! ## Defaults -/

/-- The due date that stands last is the latest one. -/
def LastIsLatest (dueDates : List Nat) : Prop :=
  ∀ last, dueDates.getLast? = some last → ∀ d ∈ dueDates, d ≤ last

/-- A default waits for the last due date of the list, and for the grace period
after it. -/
theorem markDefaulted_last {loanId : Nat} {loan : Loan} (hb : s.line.book.Sound)
    (hloan : readLoan s.line loanId = .ok loan) (h : markDefaulted c env loanId s = .ok s') :
    loan.repaymentSchedule ≠ [] ∧
      lastDueDate loan + (getProtocolParameters c s.line s.world).gracePeriodSeconds <
        env.timestamp := by
  obtain ⟨-, found, hfound, -, hends, -⟩ := (markDefaulted_ok hb).mp h
  obtain rfl : found = loan := Option.some.inj (hfound.symm.trans (readLoan_ok.mp hloan))
  have hne : found.repaymentSchedule ≠ [] := by
    intro hempty
    simp [graceEndsAt, hempty, bind_ok] at hends
  exact ⟨hne, (graceEnded_iff env.timestamp_lt hne).mp hends⟩

theorem lastDueDate_map {loan : Loan} (hne : loan.repaymentSchedule ≠ []) :
    (loan.repaymentSchedule.map (·.dueDate)).getLast? = some (lastDueDate loan) := by
  obtain ⟨last, hlast⟩ := Option.isSome_iff_exists.mp (List.getLast?_isSome.mpr hne)
  simp [lastDueDate, List.getLast?_map, hlast]

/-- The contract set up, with nothing lent. -/
def configured : State Unit :=
  ⟨{ Storage.empty with
    admin := some 10
    reputationContract := some 3
    vendorRegistry := some 4
    liquidityPool := some 2
    token := some 6 }, ()⟩

def plainRequest : LoanRequest := ⟨21, 30, 1000, 200, [], .standard⟩

set_option synthInstance.maxSize 400 in
/-- A loan on any schedule whatever is a `create_loan` away. -/
theorem schedule_reachable (schedule : List RepaymentInstallment) :
    ∃ t : State Unit, Reachable Deployed (Step .granting) t ∧
      (t.line.paused = false ∧ t.line.reentrancyLocked = false) ∧
      t.line.liquidityPool = some 2 ∧ t.line.token = some 6 ∧
      t.line.reputationContract = some 3 ∧ t.line.parametersContract = none ∧
      t.line.userActiveDebt 21 = 1070 ∧
      ∃ loan, readLoan t.line 1 = .ok loan ∧ loan.loanId = 1 ∧ loan.borrower = 21 ∧
        loan.status = .active ∧ loan.remainingBalance = 1070 ∧
        loan.repaymentSchedule = schedule := by
  have hcreated : (createLoan .granting (Env.signedBy [21] 100) plainRequest
      configured).toOption.map (fun r => (((r.2.line.paused, r.2.line.reentrancyLocked),
          r.2.line.liquidityPool, r.2.line.token),
        (r.2.line.reputationContract, r.2.line.parametersContract, r.2.line.userActiveDebt 21),
        (readLoan r.2.line 1).toOption.map fun loan =>
          (loan.loanId, loan.borrower, loan.status, loan.remainingBalance))) =
      some (((false, false), some 2, some 6), (some 3, none, 1070),
        some (1, 21, .active, 1070)) := by
    decide +kernel
  obtain ⟨⟨id, t⟩, hcreate, hobs⟩ := toOption_map_some.mp hcreated
  simp only [Prod.mk.injEq] at hobs
  obtain ⟨⟨hfree, hpool, htoken⟩, ⟨hreputation, hparams, hdebt⟩, hloan⟩ := hobs
  obtain ⟨loan, hread, hfields⟩ := toOption_map_some.mp hloan
  simp only [Prod.mk.injEq] at hfields
  obtain ⟨hid, hborrower, hactive, hremaining⟩ := hfields
  -- the configured contract has no loan to put on another schedule
  have hconfigured : configured.line.rescheduled schedule = configured.line := rfl
  have hsame : createLoan .granting (Env.signedBy [21] 100) (plainRequest.rescheduled schedule)
      configured = .ok (id, ⟨t.line.rescheduled schedule, t.world⟩) := by
    have hmap := createLoan_rescheduled .granting (Env.signedBy [21] 100) schedule plainRequest
      configured.line ()
    rw [hconfigured, hcreate] at hmap
    exact hmap
  have h0 : Reachable Deployed (Step .granting) sampleStart := .init rfl
  have hinit : Step .granting sampleStart
    (.call (Env.signedBy [10] 50) (.initializeContract 10 3 4 2 6)) configured := rfl
  have hstep : Step .granting configured
      (.call (Env.signedBy [21] 100) (.createLoan (plainRequest.rescheduled schedule)))
      ⟨t.line.rescheduled schedule, t.world⟩ := by
    simp only [Step, take, exec, hsame, Except.map]
  refine ⟨_, (h0.step hinit).step hstep, hfree, hpool, htoken, hreputation, hparams, hdebt,
    loan.rescheduled schedule, ?_, hid, hborrower, hactive, hremaining, rfl⟩
  rw [readLoan, demand_ok] at hread ⊢
  simp only [Storage.rescheduled, hread, Option.map_some]

/-- A run that lends on the given due dates and defaults the loan at `now`. -/
theorem default_reachable (dueDates : List Nat) (hne : dueDates ≠ []) {now : Nat}
    (hnow : now < 2 ^ 64) (hlast : ∀ last, dueDates.getLast? = some last → last < now) :
    ∃ (t t' : State Unit) (env : Env) (loan : Loan), Reachable Deployed (Step .granting) t ∧
      readLoan t.line loan.loanId = .ok loan ∧
      loan.repaymentSchedule.map (·.dueDate) = dueDates ∧ env.timestamp = now ∧
      (getProtocolParameters .granting t.line t.world).gracePeriodSeconds = 0 ∧
      markDefaulted .granting env loan.loanId t = .ok t' := by
  obtain ⟨t, hreach, ⟨hpaused, hlock⟩, hpool, htoken, hreputation, hparams, hdebt, loan, hread,
    hid, hborrower, hactive, hremaining, hschedule⟩ :=
    schedule_reachable (dueDates.map fun d => ⟨d, 0, false, 0⟩)
  have hdates : loan.repaymentSchedule.map (·.dueDate) = dueDates := by
    rw [hschedule, List.map_map]
    exact List.map_id dueDates
  have hgrace : (getProtocolParameters .granting t.line t.world).gracePeriodSeconds = 0 := by
    simp [getProtocolParameters, hparams, defaultProtocolParameters]
  have hempty : loan.repaymentSchedule ≠ [] := by
    intro hnil
    simp [hnil, eq_comm, hne] at hdates
  have hpast : lastDueDate loan < now := by
    have hget := lastDueDate_map hempty
    rw [hdates] at hget
    exact hlast _ hget
  let env : Env := { Env.signedBy [] 0 with timestamp := now, timestamp_lt := hnow }
  have hends : ∃ ends, graceEndsAt .granting env.timestamp t.line t.world loan = .ok ends ∧
      ends < env.timestamp := by
    rw [graceEnded_iff env.timestamp_lt hempty, hgrace]
    exact hpast
  have hflow : ForfeitFlow .granting env t.line loan t.world () := by
    refine ⟨6, 2, (), (), htoken, hpool, rfl, ?_, ?_⟩
    · split <;> rfl
    · simp [penalizeDefault, hreputation, Clients.granting]
  have hfits : I128.Fits (t.line.userActiveDebt loan.borrower - loan.remainingBalance) := by
    rw [hborrower, hdebt, hremaining]
    decide
  rw [← hid] at hread
  have hdefault : markDefaulted .granting env loan.loanId t = .ok ⟨_, ()⟩ :=
    (markDefaulted_ok (sound_of_reachable hreach)).mpr
      ⟨hpaused, loan, readLoan_ok.mp hread, hactive, hends, hlock, hfits, hflow, rfl⟩
  exact ⟨t, _, env, loan, hreach, hread, hdates, rfl, hgrace, hdefault⟩

/-- A default is confined to the time after the whole schedule, on every loan
with the given due dates, exactly when the date that stands last is the latest. -/
theorem default_after_schedule_iff (dueDates : List UInt64) :
    (∀ (W : Type) (c : Clients W) (s s' : State W) (env : Env) (loan : Loan),
      Reachable Deployed (Step c) s → readLoan s.line loan.loanId = .ok loan →
      loan.repaymentSchedule.map (·.dueDate) = dueDates.map (·.toNat) →
      markDefaulted c env loan.loanId s = .ok s' →
      ∀ i ∈ loan.repaymentSchedule,
        i.dueDate + (getProtocolParameters c s.line s.world).gracePeriodSeconds < env.timestamp) ↔
    LastIsLatest (dueDates.map (·.toNat)) := by
  constructor
  · intro hall last hlast d hd
    by_contra hlt
    obtain ⟨u, hu, rfl⟩ := List.mem_map.mp hd
    have hnow : last + 1 < 2 ^ 64 := by
      have := u.toNat_lt
      omega
    have hne : dueDates.map (·.toNat) ≠ [] := List.ne_nil_of_mem hd
    obtain ⟨t, t', env, loan, hreach, hread, hdates, htime, hgrace, hdefault⟩ :=
      default_reachable _ hne hnow fun x hx => by
        rw [hlast, Option.some.injEq] at hx
        omega
    -- the date that is later than the last one is still to come
    rw [← hdates, List.mem_map] at hd
    obtain ⟨i, hi, hdue⟩ := hd
    have := hall Unit .granting t t' env loan hreach hread hdates hdefault i hi
    omega
  · intro hlatest W c s s' env loan hreach hread hdates hdefault i hi
    obtain ⟨hne, hlt⟩ := markDefaulted_last (sound_of_reachable hreach) hread hdefault
    have hget := lastDueDate_map hne
    rw [hdates] at hget
    have hdue : i.dueDate ∈ dueDates.map (·.toNat) := by
      rw [← hdates]
      exact List.mem_map_of_mem hi
    have := hlatest _ hget _ hdue
    omega

/-- A loan over two installments, the later one listed first. -/
def unorderedLabels : List (Label Unit) :=
  [.call (Env.signedBy [10] 50) (.initializeContract 10 3 4 2 6),
    .call (Env.signedBy [21] 100) (.createLoan
      ⟨21, 30, 1000, 200, [⟨5000, 535, false, 0⟩, ⟨2000, 535, false, 0⟩], .standard⟩)]

/-- It is defaulted at `2001`, with an installment due at `5000`. -/
theorem default_before_due_date :
    ¬∀ (s s' : State Unit) (env : Env) (loan : Loan),
      Reachable Deployed (Step .granting) s → readLoan s.line loan.loanId = .ok loan →
      markDefaulted .granting env loan.loanId s = .ok s' →
      ∀ i ∈ loan.repaymentSchedule,
        i.dueDate + (getProtocolParameters .granting s.line s.world).gracePeriodSeconds <
          env.timestamp := by
  intro hall
  have hrun : (replay (take .granting) sampleStart unorderedLabels).toOption.map (fun r =>
      ((readLoan r.2.line 1).toOption.map fun loan => (loan.loanId, loan.repaymentSchedule),
        (markDefaulted .granting (Env.signedBy [] 2001) 1 r.2).toOption.map
          fun s' => s'.line.book.counter)) =
      some (some (1, [⟨5000, 535, false, 0⟩, ⟨2000, 535, false, 0⟩]), some 1) := by decide +kernel
  obtain ⟨_, s, hreach, hobs⟩ :=
    Reachable.of_replay (I := Deployed) (R := Step .granting) hrun rfl fun _ _ _ h => h
  obtain ⟨hloan, hdefaulted⟩ := Prod.mk.injEq .. ▸ hobs
  obtain ⟨loan, hread, hfields⟩ := toOption_map_some.mp hloan
  obtain ⟨hid, hschedule⟩ := Prod.mk.injEq .. ▸ hfields
  obtain ⟨s', hdefault, -⟩ := toOption_map_some.mp hdefaulted
  have hlt := hall s s' _ loan hreach (hid ▸ hread) (hid ▸ hdefault) ⟨5000, 535, false, 0⟩
    (by simp [hschedule])
  have hdue : (5000 : Nat) < 2001 := Nat.lt_of_le_of_lt (Nat.le_add_right ..) hlt
  exact absurd hdue (by decide)

/-! ## Late fees -/

section LateFees

variable {loan : Loan} {now : Nat}

/-- Every installment that has fallen due is paid. -/
def PaidUp (now : Nat) (loan : Loan) : Prop :=
  ∀ i ∈ loan.repaymentSchedule, i.dueDate < now → i.paid = true

/-- The complete days since any due date that has passed, those before the
cursor left out, come to less than one unit. -/
def CostsNothing (now : Nat) (loan : Loan) : Prop :=
  ∀ i ∈ loan.repaymentSchedule, i.dueDate < now →
    loan.remainingBalance * lateFeeBpsPerDay *
      ((now - max i.dueDate loan.lateFeeAccrualTimestamp) / secondsPerDay : Nat) < bpsDenominator

instance : Decidable (PaidUp now loan) := by
  unfold PaidUp
  infer_instance

instance : Decidable (CostsNothing now loan) := by
  unfold CostsNothing
  infer_instance

/-- At `now`, no entry point adds a late fee to the loan: accrual leaves it as
it is, and a repayment pays it down from there. -/
structure Spared (c : Clients W) (now : Nat) (s : State W) (loan : Loan) : Prop where
  accrual : accrueLateFeesInternal now loan = .ok ⟨0, loan⟩
  applied : ∀ env, env.timestamp = now → applyLateFees env loan.loanId s = .ok s
  repaid : ∀ env amount r s', env.timestamp = now →
    repayLoan c env loan.borrower loan.loanId amount s = .ok (r, s') →
    readLoan s'.line loan.loanId = .ok (loan.repaid amount loan.repaymentSchedule)
  installment : ∀ env index amount r s', env.timestamp = now →
    repayInstallment c env loan.borrower loan.loanId index amount s = .ok (r, s') →
    readLoan s'.line loan.loanId =
      .ok (loan.repaid amount (markInstallment now index loan.repaymentSchedule))

theorem lateFee_eq_zero_iff (h0 : 0 ≤ loan.remainingBalance) :
    lateFee now loan = 0 ↔ loan.remainingBalance * lateFeeBpsPerDay * daysOverdue now loan
      < bpsDenominator := by
  have hprod : 0 ≤ loan.remainingBalance * lateFeeBpsPerDay * daysOverdue now loan :=
    Int.mul_nonneg (Int.mul_nonneg h0 (by decide)) (Int.natCast_nonneg _)
  show loan.remainingBalance * lateFeeBpsPerDay * daysOverdue now loan / (10000 : Int) = 0 ↔
    loan.remainingBalance * lateFeeBpsPerDay * daysOverdue now loan < (10000 : Int)
  omega

/-- The earliest due date decides: no other has more days behind it. -/
theorem costsNothing_iff (h0 : 0 ≤ loan.remainingBalance) :
    CostsNothing now loan ↔ lateFee now loan = 0 := by
  rw [lateFee_eq_zero_iff h0]
  cases hsince : overdueSince now loan.repaymentSchedule with
  | none =>
    rw [overdueSince_eq_none] at hsince
    have hdays : daysOverdue now loan = 0 := by
      simp only [daysOverdue, overdueSince_eq_none.mpr hsince]
    constructor
    · intro _
      rw [hdays, Int.natCast_zero, Int.mul_zero]
      decide
    · intro _ i hi hdue
      have := hsince i hi
      omega
  | some since =>
    obtain ⟨⟨⟨first, hmem, rfl⟩, hleast⟩, hpast⟩ := overdueSince_eq_some.mp hsince
    rw [daysOverdue_eq hsince, accrualStart_eq_max]
    constructor
    · intro hnothing
      exact hnothing first hmem hpast
    · intro hfirst i hi _
      have hle : first.dueDate ≤ i.dueDate := hleast ⟨i, hi, rfl⟩
      have hdays : (now - max i.dueDate loan.lateFeeAccrualTimestamp) / secondsPerDay ≤
          (now - max first.dueDate loan.lateFeeAccrualTimestamp) / secondsPerDay :=
        Nat.div_le_div_right (by omega)
      have hscaled : 0 ≤ loan.remainingBalance * lateFeeBpsPerDay := Int.mul_nonneg h0 (by decide)
      refine Int.lt_of_le_of_lt (Int.mul_le_mul_of_nonneg_left ?_ hscaled) hfirst
      exact Int.ofNat_le.mpr hdays

theorem accrual_spares_iff (hs : loan.Sound) (hnow : now < 2 ^ 64) :
    accrueLateFeesInternal now loan = .ok ⟨0, loan⟩ ↔ lateFee now loan = 0 := by
  rw [accrue_ok hs hnow]
  constructor
  · rintro ⟨-, haccrued⟩
    injection haccrued with hfee
    exact hfee.symm
  · intro hfee
    have h0 := hs.remaining_nonneg
    have hprod : 0 ≤ loan.remainingBalance * lateFeeBpsPerDay * daysOverdue now loan :=
      Int.mul_nonneg (Int.mul_nonneg h0 (by decide)) (Int.natCast_nonneg _)
    have hbound : I128.Fits bpsDenominator := by decide
    have hfits : AccrualFits now loan := by
      constructor
      · exact I128.fits_of_le hbound hprod (Int.le_of_lt ((lateFee_eq_zero_iff h0).mp hfee))
      · rw [hfee, Int.add_zero]
        exact hs.remaining_fits
    exact ⟨hfits, by rw [charged_of_no_fee hfee, hfee]⟩

/-- The record a repayment leaves is the accrued one, paid down. -/
theorem settle_record {loanId : Nat} {borrower : Address} {amount r : Int}
    {check : Loan → Except Failure Unit}
    {mark : List RepaymentInstallment → List RepaymentInstallment} (hb : s.line.book.Sound)
    (hloan : s.line.book.loan loanId = some loan)
    (h : settle c env borrower loanId amount check mark s = .ok (r, s')) :
    AccrualFits env.timestamp loan ∧ 0 < amount ∧ s'.line.book.loan loanId =
      some ((loan.accrued env.timestamp).repaid amount (mark loan.repaymentSchedule)) := by
  obtain ⟨-, found, hfound, -, -, -, hfits, -, hpos, -, -, -, -, -, hline⟩ := (settle_ok hb).mp h
  obtain rfl : found = loan := Option.some.inj (hfound.symm.trans hloan)
  have hid : found.loanId = loanId := hb.keyed _ _ hloan
  refine ⟨hfits, hpos, ?_⟩
  rw [hline, ← hid, book_setLoan]
  exact Function.update_self ..

/-- No entry point adds a fee exactly when the overdue days cost nothing. -/
theorem spared_iff (hb : s.line.book.Sound) (hloan : readLoan s.line loan.loanId = .ok loan)
    (hactive : loan.status = .active) (hnow : now < 2 ^ 64) :
    Spared c now s loan ↔ CostsNothing now loan := by
  have hstored := readLoan_ok.mp hloan
  have hs := hb.loans _ _ hstored
  rw [costsNothing_iff hs.remaining_nonneg]
  constructor
  · intro hspared
    exact (accrual_spares_iff hs hnow).mp hspared.accrual
  · intro hfee
    have haccrual := (accrual_spares_iff hs hnow).mpr hfee
    have hsame : loan.accrued now = loan := charged_of_no_fee hfee
    refine ⟨haccrual, ?_, ?_, ?_⟩
    · intro env htime
      subst htime
      simp only [applyLateFees, hloan, hactive, ensure, haccrual, ok_bind, if_true]
    · intro env amount r s' htime h
      subst htime
      obtain ⟨-, -, hrecord⟩ := settle_record hb hstored h
      rw [readLoan_ok, hrecord, hsame, id]
    · intro env index amount r s' htime h
      subst htime
      obtain ⟨-, -, hrecord⟩ := settle_record hb hstored h
      rw [readLoan_ok, hrecord, hsame]

/-- A borrower who has paid every installment that fell due is spared late fees
exactly when the days since the earliest of these due dates cost nothing: the
flag `paid` plays no part in what accrues. -/
theorem paid_up_spared_iff {id : Nat} (h : Reachable Deployed (Step c) s)
    (hloan : readLoan s.line id = .ok loan) (hactive : loan.status = .active)
    (hnow : now < 2 ^ 64) :
    (PaidUp now loan → Spared c now s loan) ↔ (PaidUp now loan → CostsNothing now loan) := by
  have hb := sound_of_reachable h
  obtain rfl : loan.loanId = id := hb.keyed _ _ (readLoan_ok.mp hloan)
  exact imp_congr_right fun _ => spared_iff hb hloan hactive hnow

/-- Of two installments the one that falls due is paid in time. -/
def paidUpLabels : List (Label Unit) :=
  [.call (Env.signedBy [10] 50) (.initializeContract 10 3 4 2 6),
    .call (Env.signedBy [21] 100) (.createLoan
      ⟨21, 30, 1000, 200, [⟨1000, 535, false, 0⟩, ⟨10000000, 535, false, 0⟩], .standard⟩),
    .call (Env.signedBy [21] 900) (.repayInstallment 21 1 0 535)]

/-- Within a day of the due date nothing accrues. -/
theorem paid_up_spared_iff_sample : ∃ (s : State Unit) (loan : Loan),
    readLoan s.line 1 = .ok loan ∧ loan.status = .active ∧ PaidUp 80000 loan ∧
      Spared .granting 80000 s loan := by
  have hrun : (replay (take .granting) sampleStart paidUpLabels).toOption.map
      (fun r => (readLoan r.2.line 1).toOption.map fun loan =>
        (loan.status, decide (PaidUp 80000 loan), decide (CostsNothing 80000 loan))) =
      some (some (.active, true, true)) := by decide +kernel
  obtain ⟨_, s, hreach, hobs⟩ :=
    Reachable.of_replay (I := Deployed) (R := Step .granting) hrun rfl fun _ _ _ h => h
  obtain ⟨loan, hread, hfields⟩ := toOption_map_some.mp hobs
  simp only [Prod.mk.injEq, decide_eq_true_eq] at hfields
  obtain ⟨hactive, hpaid, hnothing⟩ := hfields
  have hspared := (paid_up_spared_iff hreach hread hactive (by decide)).mpr (fun _ => hnothing)
    hpaid
  exact ⟨s, loan, hread, hactive, hpaid, hspared⟩

set_option synthInstance.maxSize 400 in
/-- Two days after the due date anyone can charge the borrower for both, on the
whole of what falls due later. -/
theorem paid_up_borrower_charged :
    ¬∀ (s : State Unit) (loan : Loan) (now : Nat), Reachable Deployed (Step .granting) s →
      readLoan s.line loan.loanId = .ok loan → loan.status = .active → now < 2 ^ 64 →
      PaidUp now loan → ∀ (env : Env) (s' : State Unit) (loan' : Loan), env.timestamp = now →
      applyLateFees env loan.loanId s = .ok s' → readLoan s'.line loan.loanId = .ok loan' →
      loan'.remainingBalance = loan.remainingBalance := by
  intro hall
  have hrun : (replay (take .granting) sampleStart paidUpLabels).toOption.map (fun r =>
      ((readLoan r.2.line 1).toOption.map fun loan =>
        (loan.loanId, loan.status, decide (PaidUp 173800 loan), loan.remainingBalance),
        (applyLateFees (Env.signedBy [] 173800) 1 r.2).toOption.map fun s' =>
          (readLoan s'.line 1).toOption.map (·.remainingBalance))) =
      some (some (1, .active, true, 535), some (some 540)) := by decide +kernel
  obtain ⟨_, s, hreach, hobs⟩ :=
    Reachable.of_replay (I := Deployed) (R := Step .granting) hrun rfl fun _ _ _ h => h
  obtain ⟨hloan, hcharged⟩ := Prod.mk.injEq .. ▸ hobs
  obtain ⟨loan, hread, hfields⟩ := toOption_map_some.mp hloan
  simp only [Prod.mk.injEq, decide_eq_true_eq] at hfields
  obtain ⟨hid, hactive, hpaid, hbefore⟩ := hfields
  obtain ⟨s', happly, hread'⟩ := toOption_map_some.mp hcharged
  obtain ⟨loan', hread', hafter⟩ := toOption_map_some.mp hread'
  have hsame := hall s loan 173800 hreach (hid ▸ hread) hactive (by decide) hpaid
    (Env.signedBy [] 173800) s' loan' rfl (hid ▸ happly) (hid ▸ hread')
  rw [hbefore, hafter] at hsame
  exact absurd hsame (by decide)

end LateFees

end StepFi.CreditLine

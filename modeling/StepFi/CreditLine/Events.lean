import StepFi.CreditLine.Runs
import StepFi.Lib.EventLog

/-!
# The credit line's events

What each call publishes (`emitted`), and an indexer that sees nothing else. The
log tells it every loan: its parties, its amounts, its schedule with each
installment paid, its status and its late fees (`log_tells_loans`). Only what a
loan costs at the start is missing, as no event carries interest or fee: the
balance is known from the first event that changes it.
-/

namespace StepFi.CreditLine

open Lib

/-! ## Events -/

/-- The events, each with its topics and then its data. -/
inductive Emitted where
  | loanCreated (user vendor : Address) (loanId : Nat) (totalAmount guaranteeAmount : Int)
    (repaymentSchedule : List RepaymentInstallment)
  | loanRequested (user vendor : Address) (loanId : Nat) (totalAmount guaranteeAmount : Int)
    (repaymentSchedule : List RepaymentInstallment)
  | loanApproved (loanId : Nat)
  | loanFunded (user vendor : Address) (loanId : Nat) (totalAmount guaranteeAmount : Int)
    (timestamp : Nat)
  | loanCancelled (borrower : Address) (loanId : Nat) (refundedGuarantee : Int) (timestamp : Nat)
  | lateFeeAccrued (borrower : Address) (loanId : Nat) (feeAmount newRemainingBalance : Int)
    (timestamp : Nat)
  | loanRepaid (borrower : Address) (loanId : Nat) (amountPaid remainingBalance : Int)
    (isFullyRepaid : Bool) (timestamp : Nat)
  | installmentPaid (loanId installmentIndex : Nat) (amount remainingBalance : Int)
    (timestamp : Nat)
  | lateFeePaid (loanId installmentIndex : Nat) (feeAmount : Int) (timestamp : Nat)
  | loanInGracePeriod (borrower : Address) (loanId : Nat) (remainingBalance : Int)
    (gracePeriodEndsAt timestamp : Nat)
  | loanDefaulted (borrower : Address) (loanId : Nat)
    (totalAmount unpaidBalance guaranteeForfeited : Int) (timestamp : Nat)
  | upgradeProposed (wasmHash : WasmHash) (proposedAt unlockAt : Nat)
  | contractUpgraded (oldVersion newVersion timestamp : Nat)
  | paused (admin : Address) (timestamp : Nat)
  | unpaused (admin : Address) (timestamp : Nat)

section Emission

variable {W : Type} (c : Clients W)

/-- Both repayments announce the fee before anything else. -/
def accrualEvents (env : Env) (borrower : Address) (loanId : Nat) (accrued : Accrual) :
    List Emitted :=
  if 0 < accrued.fee then
    [.lateFeeAccrued borrower loanId accrued.fee accrued.loan.remainingBalance env.timestamp]
  else []

def upgradeEvents (env : Env) (newWasmHash : WasmHash) (p : Storage) :
    Except Failure (List Emitted) := do
  let upgraded ← executeUpgrade env newWasmHash p
  return [.contractUpgraded p.version upgraded.version env.timestamp]

/-- What a call publishes. A call that fails publishes nothing, and so neither the
warning of `mark_defaulted` nor a failed score update is ever seen. -/
def emitted (env : Env) (call : Call) (s : State W) : Except Failure (List Emitted) :=
  match call with
  | .createLoan r => do
    let (loanId, _) ← createLoan c env r s
    return [.loanCreated r.user r.vendor loanId r.totalAmount r.guaranteeAmount
      r.repaymentSchedule]
  | .requestLoan r => do
    let (loanId, _) ← requestLoan c env r s
    return [.loanRequested r.user r.vendor loanId r.totalAmount r.guaranteeAmount
      r.repaymentSchedule]
  | .approveLoan loanId => do
    let (loan, _) ← approveLoan c env loanId s
    return [.loanApproved loanId, .loanFunded loan.borrower loan.vendor loanId loan.totalAmount
      loan.guaranteeAmount env.timestamp]
  | .cancelLoan caller loanId => do
    let _ ← cancelLoan c env caller loanId s
    let loan ← readLoan s.line loanId
    return [.loanCancelled loan.borrower loanId loan.guaranteeAmount env.timestamp]
  | .repayLoan borrower loanId amount => do
    let (newBalance, _) ← repayLoan c env borrower loanId amount s
    let loan ← readLoan s.line loanId
    let accrued ← accrueLateFeesInternal env.timestamp loan
    return accrualEvents env borrower loanId accrued ++
      [.loanRepaid borrower loanId amount newBalance (newBalance = 0) env.timestamp]
  | .repayInstallment borrower loanId index amount => do
    let (newBalance, _) ← repayInstallment c env borrower loanId index amount s
    let loan ← readLoan s.line loanId
    let accrued ← accrueLateFeesInternal env.timestamp loan
    let paid ← applyWaterfall accrued.loan amount
    let lateFeePaid := paid.allocation.lateFeePaid
    return accrualEvents env borrower loanId accrued ++
      [.installmentPaid loanId index amount newBalance env.timestamp] ++
      if 0 < lateFeePaid then [.lateFeePaid loanId index lateFeePaid env.timestamp] else []
  | .applyLateFees loanId => do
    let _ ← applyLateFees env loanId s
    let loan ← readLoan s.line loanId
    let accrued ← accrueLateFeesInternal env.timestamp loan
    return if accrued.fee = 0 then [] else
      [.lateFeeAccrued loan.borrower loanId accrued.fee accrued.loan.remainingBalance
        env.timestamp]
  | .warnGracePeriod loanId => do
    let _ ← warnGracePeriod c env loanId s
    let loan ← readLoan s.line loanId
    let ends ← graceEndsAt c env.timestamp s.line s.world loan
    return [.loanInGracePeriod loan.borrower loanId loan.remainingBalance ends env.timestamp]
  | .markDefaulted loanId => do
    let _ ← markDefaulted c env loanId s
    let loan ← readLoan s.line loanId
    return [.loanDefaulted loan.borrower loanId loan.totalAmount loan.remainingBalance
      loan.guaranteeAmount env.timestamp]
  | .proposeUpgrade newWasmHash => do
    let p ← proposeUpgrade c env newWasmHash s
    let pending ← demand p.pendingUpgrade (.creditLine .upgradeNotProposed)
    return [.upgradeProposed pending.wasmHash pending.proposedAt pending.unlockAt]
  | .executeUpgrade newWasmHash => upgradeEvents env newWasmHash s.line
  | .upgrade newWasmHash => upgradeEvents env newWasmHash s.line
  | .pause admin => do
    let _ ← pause env admin s.line
    return [.paused admin env.timestamp]
  | .unpause admin => do
    let _ ← unpause env admin s.line
    return [.unpaused admin env.timestamp]
  | _ => .ok []

def publishes (s : State W) : Label W → List Emitted
  | .call env call => (emitted c env call s).toOption.getD []
  | .world _ => []

end Emission

/-! ## The indexer -/

/-- What an indexer keeps of a loan. -/
structure Seen where
  borrower : Address
  vendor : Address
  totalAmount : Int
  guaranteeAmount : Int
  repaymentSchedule : List RepaymentInstallment
  status : LoanStatus
  lateFeesOutstanding : Int
  /-- `none` until an event carries it. -/
  remainingBalance : Option Int

/-- Late fees are paid first. -/
def Seen.paid (seen : Seen) (amount remaining : Int) : Seen :=
  { seen with
    status := if remaining = 0 then .paid else seen.status
    lateFeesOutstanding := seen.lateFeesOutstanding - min amount seen.lateFeesOutstanding
    remainingBalance := some remaining }

def revise (id : Nat) (f : Seen → Seen) (v : Nat → Option Seen) : Nat → Option Seen :=
  Function.update v id ((v id).map f)

def see (v : Nat → Option Seen) : Emitted → Nat → Option Seen
  | .loanCreated user vendor id total guarantee schedule =>
    Function.update v id (some ⟨user, vendor, total, guarantee, schedule, .active, 0, none⟩)
  | .loanRequested user vendor id total guarantee schedule =>
    Function.update v id (some ⟨user, vendor, total, guarantee, schedule, .pending, 0, none⟩)
  | .loanFunded _ _ id _ _ _ => revise id (fun seen => { seen with status := .active }) v
  | .loanCancelled _ id _ _ => revise id (fun seen => { seen with status := .cancelled }) v
  | .lateFeeAccrued _ id fee remaining _ =>
    revise id (fun seen => { seen with
      lateFeesOutstanding := seen.lateFeesOutstanding + fee
      remainingBalance := some remaining }) v
  | .loanRepaid _ id amount remaining _ _ => revise id (fun seen => seen.paid amount remaining) v
  | .installmentPaid id index amount remaining timestamp =>
    revise id (fun seen => { seen.paid amount remaining with
      repaymentSchedule := markInstallment timestamp index seen.repaymentSchedule }) v
  | .loanDefaulted _ id _ _ _ _ => revise id (fun seen => { seen with status := .defaulted }) v
  | _ => v

/-- What the log of a run says of each loan. -/
def indexed {W : Type} (c : Clients W) (tr : List (State W × Label W)) : Nat → Option Seen :=
  (logged (publishes c) tr).foldl see fun _ => none

/-- The indexer's record is right; while the balance is not known, it is what the
loan cost at the start. -/
structure Seen.Of (seen : Seen) (loan : Loan) : Prop where
  borrower : seen.borrower = loan.borrower
  vendor : seen.vendor = loan.vendor
  totalAmount : seen.totalAmount = loan.totalAmount
  guaranteeAmount : seen.guaranteeAmount = loan.guaranteeAmount
  repaymentSchedule : seen.repaymentSchedule = loan.repaymentSchedule
  status : seen.status = loan.status
  lateFees : seen.lateFeesOutstanding = loan.lateFeesOutstanding
  balance : seen.remainingBalance.getD
    (loan.totalAmount + loan.interestAmount + loan.serviceFeeAmount) = loan.remainingBalance

/-- The indexer knows the loans there are, and no others. -/
def Agrees (v : Nat → Option Seen) (loans : Nat → Option Loan) : Prop :=
  ∀ id, Option.Rel Seen.Of (v id) (loans id)

section Agree

variable {v : Nat → Option Seen} {loans : Nat → Option Loan} {loan new : Loan} {id now : Nat}
variable {x : Seen} {f : Seen → Seen} {env : Env} {amount : Int}

theorem Agrees.write (ha : Agrees v loans) (hnew : x.Of new) :
    Agrees (Function.update v id (some x)) (Function.update loans id (some new)) := by
  intro i
  by_cases hi : i = id
  · subst hi
    rw [Function.update_self, Function.update_self]
    exact .some hnew
  · rw [Function.update_of_ne hi, Function.update_of_ne hi]
    exact ha i

theorem Agrees.revise (ha : Agrees v loans) (hold : loans id = some loan)
    (hf : ∀ x : Seen, x.Of loan → (f x).Of new) :
    Agrees (revise id f v) (Function.update loans id (some new)) := by
  have hrel := ha id
  rw [hold] at hrel
  unfold CreditLine.revise
  cases hv : v id with
  | none =>
    rw [hv] at hrel
    cases hrel
  | some x =>
    rw [hv] at hrel
    cases hrel with
    | some hx => exact ha.write (hf x hx)

theorem Seen.Of.restatus (h : x.Of loan) (status : LoanStatus) (fundedAt : Nat) :
    Seen.Of { x with status := status }
      { loan with status := status, fundedAt := fundedAt } :=
  ⟨h.borrower, h.vendor, h.totalAmount, h.guaranteeAmount, h.repaymentSchedule, rfl, h.lateFees,
    h.balance⟩

/-- A new loan costs its principal, interest and service fee. -/
theorem Loan.Issued.seen {r : LoanRequest} (h : new.Issued r now) :
    Seen.Of ⟨r.user, r.vendor, r.totalAmount, r.guaranteeAmount, r.repaymentSchedule, new.status, 0,
      none⟩ new where
  borrower := h.borrower.symm
  vendor := h.vendor.symm
  totalAmount := h.total.symm
  guaranteeAmount := h.guarantee.symm
  repaymentSchedule := h.schedule.symm
  status := rfl
  lateFees := h.lateFees.symm
  balance := by
    have hbuckets := h.sound.buckets
    rw [h.principal, h.interest, h.serviceFee, h.lateFees, Int.add_zero] at hbuckets
    exact hbuckets.symm

theorem Seen.Of.accrued (h : x.Of loan) :
    Seen.Of { x with
      lateFeesOutstanding := x.lateFeesOutstanding + lateFee now loan
      remainingBalance := some (loan.accrued now).remainingBalance } (loan.accrued now) :=
  ⟨h.borrower, h.vendor, h.totalAmount, h.guaranteeAmount, h.repaymentSchedule, h.status,
    congrArg (· + lateFee now loan) h.lateFees, rfl⟩

theorem Seen.Of.repaid {schedule : List RepaymentInstallment} (h : x.Of loan)
    (hactive : loan.status = .active) :
    Seen.Of { x.paid amount (loan.remainingBalance - amount) with
      repaymentSchedule := schedule } (loan.repaid amount schedule) where
  borrower := h.borrower
  vendor := h.vendor
  totalAmount := h.totalAmount
  guaranteeAmount := h.guaranteeAmount
  repaymentSchedule := rfl
  status := by
    have hzero : loan.remainingBalance - amount = 0 ↔ loan.remainingBalance = amount := by omega
    simp only [Seen.paid, Loan.repaid, hzero, h.status, hactive]
  lateFees := by
    simp only [Seen.paid, Loan.repaid, Loan.paidDown, allocate, h.lateFees]
  balance := rfl

/-- The fee's event carries the view over the accrual, and without a fee there is
neither. -/
theorem Agrees.accrue {e : Env} {b : Address} (ha : Agrees v loans) (hold : loans id = some loan)
    (hfee : 0 ≤ lateFee e.timestamp loan) :
    Agrees ((accrualEvents e b id
      ⟨lateFee e.timestamp loan, loan.accrued e.timestamp⟩).foldl see v)
      (Function.update loans id (some (loan.accrued e.timestamp))) := by
  unfold accrualEvents
  split
  · exact ha.revise hold fun x hx => hx.accrued
  · rename_i hno
    have hzero : lateFee e.timestamp loan = 0 := Int.le_antisymm (Int.not_lt.mp hno) hfee
    have hsame : loan.accrued e.timestamp = loan := charged_of_no_fee hzero
    rw [hsame, ← hold, Function.update_eq_self]
    exact ha

end Agree

/-! ## A step -/

section Step

variable {W : Type} {c : Clients W} {env : Env} {call : Call} {s s' : State W}
variable {v : Nat → Option Seen}

/-- The events that leave the indexer as it is. -/
def Emitted.Silent : Emitted → Prop
  | .loanApproved _ => True
  | .lateFeePaid .. => True
  | .loanInGracePeriod .. => True
  | .upgradeProposed .. => True
  | .contractUpgraded .. => True
  | .paused .. => True
  | .unpaused .. => True
  | _ => False

theorem see_silent {evs : List Emitted} (h : ∀ ev ∈ evs, ev.Silent) : evs.foldl see v = v := by
  induction evs with
  | nil => rfl
  | cons ev evs ih =>
    obtain ⟨hev, hevs⟩ := List.forall_mem_cons.mp h
    rw [List.foldl_cons, show see v ev = v by cases ev <;> first | rfl | exact hev.elim]
    exact ih hevs

theorem emitted_passive {evs : List Emitted} (hpassive : call.Passive)
    (h : emitted c env call s = .ok evs) : ∀ ev ∈ evs, ev.Silent := by
  have hone : ∀ ev : Emitted, [ev] = evs → ev.Silent → ∀ ev ∈ evs, ev.Silent := by
    rintro ev rfl hev
    exact List.forall_mem_singleton.mpr hev
  have hupgrade : ∀ newWasmHash, upgradeEvents env newWasmHash s.line = .ok evs →
      ∀ ev ∈ evs, ev.Silent := by
    intro newWasmHash h
    simp only [upgradeEvents, bind_ok, pure_ok] at h
    obtain ⟨_, -, h⟩ := h
    exact hone _ h trivial
  cases call with
  | warnGracePeriod loanId =>
    simp only [emitted, bind_ok, pure_ok] at h
    obtain ⟨_, -, _, -, _, -, h⟩ := h
    exact hone _ h trivial
  | proposeUpgrade newWasmHash =>
    simp only [emitted, bind_ok, pure_ok] at h
    obtain ⟨_, -, _, -, h⟩ := h
    exact hone _ h trivial
  | executeUpgrade newWasmHash => exact hupgrade _ h
  | upgrade newWasmHash => exact hupgrade _ h
  | pause admin =>
    simp only [emitted, bind_ok, pure_ok] at h
    obtain ⟨_, -, h⟩ := h
    exact hone _ h trivial
  | unpause admin =>
    simp only [emitted, bind_ok, pure_ok] at h
    obtain ⟨_, -, h⟩ := h
    exact hone _ h trivial
  | createLoan | requestLoan | approveLoan | cancelLoan | repayLoan | repayInstallment
  | applyLateFees | markDefaulted => exact hpassive.elim
  | _ =>
    obtain rfl := Except.ok.inj h
    simp

/-- Both repayments: the fee is announced, then the payment. -/
theorem settle_seen {borrower : Address} {loanId : Nat} {amount r : Int}
    {check : Loan → Except Failure Unit} {f : Seen → Seen}
    {mark : List RepaymentInstallment → List RepaymentInstallment} (hb : s.line.book.Sound)
    (ha : Agrees v s.line.book.loan)
    (h : settle c env borrower loanId amount check mark s = .ok (r, s'))
    (hf : ∀ (x : Seen) (loan : Loan), x.Of loan → loan.status = .active →
      r = loan.remainingBalance - amount →
      (f x).Of (loan.repaid amount (mark loan.repaymentSchedule))) :
    ∃ loan, s.line.book.loan loanId = some loan ∧
      accrueLateFeesInternal env.timestamp loan
        = .ok ⟨lateFee env.timestamp loan, loan.accrued env.timestamp⟩ ∧
      applyWaterfall (loan.accrued env.timestamp) amount
        = .ok ⟨allocate (loan.accrued env.timestamp) amount,
          (loan.accrued env.timestamp).paidDown amount⟩ ∧
      Agrees (revise loanId f ((accrualEvents env borrower loanId
        ⟨lateFee env.timestamp loan, loan.accrued env.timestamp⟩).foldl see v))
        s'.line.book.loan := by
  obtain ⟨-, loan, hloan, -, hactive, -, haccrual, -, hpos, hle, -, -, -, hr, hline⟩ :=
    (settle_ok hb).mp h
  have hs := hb.loans _ _ hloan
  have hid : loan.loanId = loanId := hb.keyed _ _ hloan
  have hpaid := ha.accrue (e := env) (b := borrower) hloan (lateFee_nonneg hs.remaining_nonneg)
  refine ⟨loan, hloan, (accrue_ok hs env.timestamp_lt).mpr ⟨haccrual, rfl⟩,
    (applyWaterfall_ok (hs.accrued hactive haccrual).balanced (Int.le_of_lt hpos) hle).mpr rfl, ?_⟩
  have hrevised := hpaid.revise (Function.update_self ..) fun x hx =>
    hf x (loan.accrued env.timestamp) hx hactive hr
  rw [Function.update_idem] at hrevised
  rw [hline, book_setLoan]
  subst hid
  exact hrevised

/-- The events of a call carry the indexer over it. -/
theorem exec_seen (hb : s.line.book.Sound) (ha : Agrees v s.line.book.loan)
    (h : exec c env call s = .ok s') :
    Agrees (((emitted c env call s).toOption.getD []).foldl see v) s'.line.book.loan := by
  by_cases hpassive : call.Passive
  · obtain ⟨-, hkeeps⟩ := exec_keeps hpassive h
    rw [hkeeps.book]
    cases he : emitted c env call s with
    | error e => exact ha
    | ok evs =>
      simp only [Except.toOption, Option.getD_some]
      rw [see_silent (emitted_passive hpassive he)]
      exact ha
  cases call with
  | createLoan r =>
    obtain ⟨⟨id, s₁⟩, h₁, rfl⟩ := map_ok.mp h
    obtain ⟨loan, hissued, hactive, -, -, rfl, -, hbook, -⟩ := createLoan_spec h₁
    simp only [emitted, h₁, hbook]
    exact ha.write (hactive ▸ hissued.seen)
  | requestLoan r =>
    obtain ⟨⟨id, s₁⟩, h₁, rfl⟩ := map_ok.mp h
    obtain ⟨loan, hissued, hpending, -, rfl, -, hbook, -⟩ := requestLoan_spec h₁
    simp only [emitted, h₁, hbook]
    exact ha.write (hpending ▸ hissued.seen)
  | approveLoan loanId =>
    obtain ⟨⟨approved, s₁⟩, h₁, rfl⟩ := map_ok.mp h
    obtain ⟨loan, hloan, -, rfl, -, hline⟩ := approveLoan_spec hb h₁
    obtain rfl := hb.keyed _ _ hloan
    simp only [emitted, h₁, hline, book_setLoan]
    exact ha.revise hloan fun x hx => hx.restatus _ _
  | cancelLoan caller loanId =>
    obtain ⟨loan, hloan, -, -, hline⟩ := cancelLoan_spec hb h
    obtain rfl := hb.keyed _ _ hloan
    have h₁ : cancelLoan c env caller loan.loanId s = .ok s' := h
    simp only [emitted, h₁, readLoan_ok.mpr hloan, hline, book_setLoan]
    exact ha.revise hloan fun x hx => hx.restatus _ _
  | repayLoan borrower loanId amount =>
    obtain ⟨⟨r, s₁⟩, h₁, rfl⟩ := map_ok.mp h
    obtain ⟨loan, hloan, haccrue, -, hagrees⟩ :=
      settle_seen (f := fun x => x.paid amount r) hb ha h₁ fun x loan hx hactive hr => by
        rw [hr, id_eq, ← hx.repaymentSchedule]
        exact hx.repaid hactive
    simp only [emitted, h₁, readLoan_ok.mpr hloan, haccrue, ok_bind, Pure.pure, Except.pure,
      Except.toOption, Option.getD_some, List.foldl_append]
    exact hagrees
  | repayInstallment borrower loanId index amount =>
    obtain ⟨⟨r, s₁⟩, h₁, rfl⟩ := map_ok.mp h
    obtain ⟨loan, hloan, haccrue, hpaid, hagrees⟩ :=
      settle_seen (f := fun x => { x.paid amount r with
        repaymentSchedule := markInstallment env.timestamp index x.repaymentSchedule })
        hb ha h₁ fun x loan hx hactive hr => by
        rw [hr, hx.repaymentSchedule]
        exact hx.repaid hactive
    simp only [emitted, h₁, readLoan_ok.mpr hloan, haccrue, hpaid, ok_bind, Pure.pure, Except.pure,
      Except.toOption, Option.getD_some, List.foldl_append]
    rw [see_silent (by split <;> simp [Emitted.Silent])]
    exact hagrees
  | applyLateFees loanId =>
    obtain ⟨loan, hloan, hactive, haccrual, hcase⟩ := (applyLateFees_ok hb).mp h
    have hs := hb.loans _ _ hloan
    have haccrue := (accrue_ok hs env.timestamp_lt).mpr ⟨haccrual, rfl⟩
    have h₁ : applyLateFees env loanId s = .ok s' := h
    simp only [emitted, h₁, readLoan_ok.mpr hloan, haccrue, ok_bind, Pure.pure, Except.pure,
      Except.toOption, Option.getD_some]
    obtain ⟨hfee, rfl⟩ | ⟨hfee, -, rfl⟩ := hcase
    · simp only [hfee, if_true]
      exact ha
    · simp only [hfee, if_false]
      rw [book_setLoan]
      obtain rfl := hb.keyed _ _ hloan
      exact ha.revise hloan fun x hx => hx.accrued
  | markDefaulted loanId =>
    obtain ⟨-, loan, hloan, -, -, -, -, -, hline⟩ := (markDefaulted_ok hb).mp h
    obtain rfl := hb.keyed _ _ hloan
    have h₁ : markDefaulted c env loan.loanId s = .ok s' := h
    simp only [emitted, h₁, readLoan_ok.mpr hloan, hline, book_setLoan]
    exact ha.revise hloan fun x hx => hx.restatus _ loan.fundedAt
  | _ => exact absurd trivial hpassive

theorem observes : Observes Deployed (Step c) (publishes c) see (fun _ => none)
    fun v s => Agrees v s.line.book.loan where
  start := by
    intro s h0 id
    rw [show s.line = Storage.empty from h0]
    exact .none
  step := by
    intro s l s' v hreach ha hs
    cases l with
    | call env call => exact exec_seen (sound_of_reachable hreach) ha hs
    | world w =>
      cases hs
      exact ha

end Step

/-- The log of a run tells of each loan there is, and of no other, its parties,
amounts, schedule, status and late fees, and its balance from the first event that
carries one. -/
theorem log_tells_loans {W : Type} {c : Clients W} {s₀ s : State W}
    {tr : List (State W × Label W)} (h : Run (Step c) s₀ tr s) (h0 : Deployed s₀) (id : Nat) :
    Option.Rel Seen.Of (indexed c tr id) (s.line.book.loan id) :=
  observes.run h0 h id

/-- The fee and what it was charged on, from the log of the sample run. -/
theorem log_tells_loans_sample : ∃ (s : State Unit) (tr : List (State Unit × Label Unit)),
    (indexed .granting tr 1).map (fun x => (x.lateFeesOutstanding, x.remainingBalance))
      = some (7, some 777) ∧
    Option.Rel Seen.Of (indexed .granting tr 1) (s.line.book.loan 1) := by
  have hreplay : (replay (take .granting) sampleStart sampleLabels).toOption.map
      (fun r => (indexed .granting r.1 1).map fun x =>
        (x.lateFeesOutstanding, x.remainingBalance)) = some (some (7, some 777)) := by
    decide +kernel
  obtain ⟨tr, s, hr, hobs⟩ := replay_observed hreplay
  have hrun : Run (Step .granting) sampleStart tr s := Run.of_replay (fun _ _ _ _ h => h) hr
  exact ⟨s, tr, hobs, log_tells_loans hrun rfl 1⟩

end StepFi.CreditLine

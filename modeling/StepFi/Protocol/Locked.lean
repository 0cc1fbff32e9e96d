import StepFi.Protocol.Funds

/-!
# Locked liquidity

The pool's lock against the money still at risk: `Book.atRisk`, the sum over the
active loans of the principal beyond their guarantees. The lock never exceeds
it (`locked_le_atRisk`). It falls below it when principal that only the
guarantee covers is repaid, and when a loan defaults, as long as another loan is
at risk: `lockedExact_iff_own_released` says exactly when it is exact.
-/

namespace StepFi.Protocol

open Lib CreditLine

variable {d : Deployment} {s s' s₀ : State} {l : Label} {e : Event} {b : Book} {loan : Loan}
variable {tr : List (State × Label)}

/-- The pool's money at risk in a loan. -/
def exposure (loan : Loan) : Int :=
  if loan.status = .active then max 0 (loan.principalOutstanding - loan.guaranteeAmount) else 0

theorem exposure_nonneg (loan : Loan) : 0 ≤ exposure loan := by
  unfold exposure
  split <;> omega

/-- The pool's money at risk. -/
def atRisk (b : Book) : Int := tally b.counter b.loan exposure

/-- Locked liquidity is the money at risk. -/
def LockedExact (s : State) : Prop :=
  s.world.pool.lockedLiquidity = atRisk s.line.book

instance (s : State) : Decidable (LockedExact s) := inferInstanceAs (Decidable (_ = _))

/-- No other active loan owes more principal than its guarantee. -/
def Alone (s : State) (loan : Loan) : Prop :=
  ∀ id ∈ Finset.Icc 1 s.line.loanCounter, ∀ other ∈ s.line.book.loan id,
    id ≠ loan.loanId → other.status = .active → other.principalOutstanding ≤ other.guaranteeAmount

instance (s : State) (loan : Loan) : Decidable (Alone s loan) := by
  unfold Alone
  infer_instance

/-- The payment of `amount` leaves at least the guarantee to pay, or all of the
principal. -/
def SparesGuarantee (now : Nat) (loan : Loan) (amount : Int) : Prop :=
  min loan.principalOutstanding loan.guaranteeAmount
    ≤ loan.remainingBalance + lateFee now loan - amount

instance (now : Nat) (loan : Loan) (amount : Int) : Decidable (SparesGuarantee now loan amount) :=
  inferInstanceAs (Decidable (_ ≤ _))

/-- The step releases no more than its own loan's exposure: a repayment spares
the guarantee, or nothing else is at risk; at a default nothing else is. -/
def ReleasesOwnLock (s : State) (l : Label) : Prop :=
  OnRepayment (fun loan amount => SparesGuarantee l.env.timestamp loan amount ∨ Alone s loan) s l
    ∧ OnDefault (Alone s) s l

instance (s : State) (l : Label) : Decidable (ReleasesOwnLock s l) :=
  inferInstanceAs (Decidable (_ ∧ _))

theorem exposure_active (h : loan.status = .active) :
    exposure loan = max 0 (loan.principalOutstanding - loan.guaranteeAmount) := if_pos h

theorem exposure_inactive (h : loan.status ≠ .active) : exposure loan = 0 := if_neg h

theorem exposure_accrued (now : Nat) (loan : Loan) :
    exposure (loan.accrued now) = exposure loan := rfl

theorem exposure_eq_zero_iff : exposure loan = 0 ↔
    (loan.status = .active → loan.principalOutstanding ≤ loan.guaranteeAmount) := by
  unfold exposure
  split
  · rename_i h
    simp only [h, forall_const]
    omega
  · rename_i h
    simp [h]

theorem alone_iff (hs : s.line.book.Sound) (hold : s.line.book.loan loan.loanId = some loan) :
    Alone s loan ↔ atRisk s.line.book = exposure loan := by
  rw [atRisk, tally_eq_single_iff (fun _ loan _ => exposure_nonneg loan) hs.filled hold]
  simp only [Alone, exposure_eq_zero_iff]
  exact ⟨fun h id other hother => h id (hs.filled id other hother) other hother,
    fun h id _ other hother => h id other hother⟩

theorem exposure_le (hs : s.line.book.Sound) (hold : s.line.book.loan loan.loanId = some loan) :
    exposure loan ≤ atRisk s.line.book :=
  le_tally (fun _ loan _ => exposure_nonneg loan) (hs.mem hold) hold

/-- A repayment takes the principal it pays off the exposure, down to nothing. -/
theorem exposure_repaid {now : Nat} {amount : Int} (schedule : List RepaymentInstallment)
    (hs : (loan.accrued now).Sound) (hpos : 0 ≤ amount)
    (hle : amount ≤ (loan.accrued now).remainingBalance) :
    exposure ((loan.accrued now).repaid amount schedule)
      = max 0 (loan.principalOutstanding
          - (allocate (loan.accrued now) amount).principalPaid - loan.guaranteeAmount) := by
  have hleft := (allocate_spec hs hpos hle).principal_left hs
  have hguarantee := hs.guarantee_pos
  have hprincipal : (loan.accrued now).principalOutstanding = loan.principalOutstanding := rfl
  have hsame : (loan.accrued now).guaranteeAmount = loan.guaranteeAmount := rfl
  simp only [exposure, Loan.repaid, Loan.paidDown]
  by_cases hfull : (loan.accrued now).remainingBalance = amount
  · -- A loan paid in full has no principal left.
    simp only [hfull, if_true, reduceCtorEq, if_false]
    omega
  · simp only [hfull, if_false, if_true]
    omega

/-- The lock after a repayment is exact when the guarantee is spared or nothing
else is at risk. -/
theorem repay_exact_iff {p g m m' rest paid left : Int} (hrest : 0 ≤ rest)
    (hpaid : 0 ≤ paid) (hleft : p - paid = min p left) (hm : m = max 0 (p - g))
    (hm' : m' = max 0 (p - paid - g)) :
    max 0 (m + rest - paid) = m + rest + (m' - m) ↔ min p g ≤ left ∨ m + rest = m := by
  omega

/-- What is lent enters the lock and the money at risk alike. -/
theorem exposure_lent (hs : loan.Sound) (hactive : loan.status = .active)
    (hprincipal : loan.principalOutstanding = loan.totalAmount) :
    exposure loan = loan.totalAmount - loan.guaranteeAmount := by
  have hle := hs.guarantee_le
  rw [exposure_active hactive, hprincipal]
  omega

theorem Turn.locked {provided x y : Int} (ht : Turn d s l s' e provided x y) :
    s'.world.pool.lockedLiquidity = ((s.world.funds d).after e).locked := by
  have h := congrArg Funds.locked ht.funds
  exact h

/-- What an entry adds to the money at risk. -/
def Event.risked : Event → Int
  | .issue loan => if loan.status = .active then loan.totalAmount - loan.guaranteeAmount else 0
  | .activate loan _ => loan.totalAmount - loan.guaranteeAmount
  | .repay loan now amount _ =>
    max 0 (loan.principalOutstanding - (allocate (loan.accrued now) amount).principalPaid
      - loan.guaranteeAmount) - exposure loan
  | .forfeit loan => -exposure loan
  | _ => 0

theorem Turn.risked {provided x y : Int} (ht : Turn d s l s' e provided x y)
    (hi : Invariant d s) : e.change exposure = Event.risked e := by
  have hvalid := ht.valid
  cases hvalid with
  | idle => rfl
  | @issue loan hid hs =>
    obtain ⟨r, hissued⟩ := ht.issued
    simp only [Event.change, Event.risked]
    split
    · exact exposure_lent hs ‹_› hissued.principal
    · exact exposure_inactive ‹_›
  | @activate loan now hold hpending =>
    have hs : Loan.Sound { loan with status := .active, fundedAt := now } :=
      (hi.book.loans _ _ hold).status (by simp [hpending]) (by simp) now
    have hprincipal := hi.unpaid _ _ hold hpending
    have hlent := exposure_lent hs rfl hprincipal
    have hnone : exposure loan = 0 := exposure_inactive (by simp [hpending])
    rw [Event.change, hlent, hnone, Int.sub_zero]
    rfl
  | @cancel loan hold hpending =>
    have hnone : exposure loan = 0 := exposure_inactive (by simp [hpending])
    have hnone' : exposure { loan with status := .cancelled } = 0 := exposure_inactive (by simp)
    rw [Event.change, hnone, hnone']
    rfl
  | accrue =>
    rw [Event.change, exposure_accrued, Int.sub_self]
    rfl
  | @repay loan now amount schedule hold hactive hfits hpos hle =>
    have hs := (hi.book.loans _ _ hold).accrued hactive hfits
    rw [Event.change, exposure_repaid schedule hs (Int.le_of_lt hpos) hle]
    rfl
  | @forfeit loan hold hactive =>
    have hnone : exposure { loan with status := .defaulted } = 0 := exposure_inactive (by simp)
    rw [Event.change, hnone, Int.zero_sub]
    rfl

theorem Turn.atRisk {provided x y : Int} (ht : Turn d s l s' e provided x y)
    (hi : Invariant d s) :
    Protocol.atRisk s'.line.book = Protocol.atRisk s.line.book + Event.risked e := by
  rw [ht.book, ← ht.risked hi]
  exact ht.valid.tally_apply hi.book exposure

theorem Step.lockedExact_iff (h : Step d s l s') (hi : Invariant d s) (hp : LockedExact s) :
    LockedExact s' ↔ ReleasesOwnLock s l := by
  obtain ⟨e, provided, x, y, ht⟩ := h.turn hi
  have hlock : (s.world.funds d).locked = atRisk s.line.book := hp
  rw [ReleasesOwnLock, ht.onRepayment, ht.onDefault, LockedExact, ht.locked, ht.atRisk hi]
  have hvalid := ht.valid
  cases hvalid with
  | @issue loan =>
    simp only [Event.Repays, Event.Forfeits, Event.risked, Funds.after, and_self, iff_true]
    split <;> simp only [Funds.lend, Funds.hold, hlock, Int.add_zero]
  | @repay loan now amount schedule hold hactive hfits hpos hle =>
    have hs := (hi.book.loans _ _ hold).accrued hactive hfits
    have ha := allocate_spec hs (Int.le_of_lt hpos) hle
    have hafter : ((s.world.funds d).after (.repay loan now amount schedule)).locked
        = max 0 (atRisk s.line.book - (allocate (loan.accrued now) amount).principalPaid) := by
      simp only [Funds.after]
      split <;> simp only [Funds.repay, Funds.release, hlock]
    have hrest : exposure loan ≤ atRisk s.line.book := exposure_le hi.book hold
    have hsplit : atRisk s.line.book
        = exposure loan + (atRisk s.line.book - exposure loan) := by omega
    have hleft : loan.principalOutstanding - (allocate (loan.accrued now) amount).principalPaid
        = min loan.principalOutstanding (loan.remainingBalance + lateFee now loan - amount) :=
      ha.principal_left hs
    -- The lock is the loan's own share and that of the others.
    have hiff := repay_exact_iff (Int.sub_nonneg_of_le hrest) ha.principal.1 hleft
      (exposure_active hactive) rfl
    rw [← hsplit] at hiff
    simp only [Event.Repays, Event.Forfeits, Event.risked, and_true, hafter,
      alone_iff hi.book hold, SparesGuarantee, ← ht.now]
    exact hiff
  | @forfeit loan hold hactive =>
    have hg := (hi.book.loans _ _ hold).guarantee_pos
    have hle : exposure loan ≤ atRisk s.line.book := exposure_le hi.book hold
    have hm := exposure_active hactive
    simp only [Event.Repays, Event.Forfeits, Event.risked, true_and, Funds.after, Funds.recover,
      Funds.absorb, hlock, alone_iff hi.book hold]
    omega
  | _ =>
    -- Nothing is repaid or forfeited: the lock follows what is lent.
    simp only [Event.Repays, Event.Forfeits, Event.risked, Funds.after, and_self, Funds.lend,
      Funds.release, hlock, Int.add_zero]

/-- What closing or paying releases never leaves more locked than is at risk. -/
theorem Step.locked_le_atRisk (h : Step d s l s') (hi : Invariant d s)
    (hle : s.world.pool.lockedLiquidity ≤ atRisk s.line.book) :
    s'.world.pool.lockedLiquidity ≤ atRisk s'.line.book := by
  obtain ⟨e, provided, x, y, ht⟩ := h.turn hi
  have hlock : (s.world.funds d).locked ≤ atRisk s.line.book := hle
  rw [ht.locked, ht.atRisk hi]
  have hvalid := ht.valid
  cases hvalid with
  | @issue loan =>
    simp only [Event.risked, Funds.after]
    split <;> simp only [Funds.lend, Funds.hold] <;> omega
  | @repay loan now amount schedule hold hactive hfits hpos hle =>
    have hs := (hi.book.loans _ _ hold).accrued hactive hfits
    have hpaid := (allocate_spec hs (Int.le_of_lt hpos) hle).principal.1
    have hrest : exposure loan ≤ atRisk s.line.book := exposure_le hi.book hold
    have hm := exposure_active hactive
    simp only [Event.risked, Funds.after]
    split <;> simp only [Funds.repay, Funds.release] <;> omega
  | @forfeit loan hold hactive =>
    have hg := (hi.book.loans _ _ hold).guarantee_pos
    have hrest : exposure loan ≤ atRisk s.line.book := exposure_le hi.book hold
    have hm := exposure_active hactive
    simp only [Event.risked, Funds.after, Funds.recover, Funds.absorb]
    omega
  | _ =>
    simp only [Event.risked, Funds.after, Funds.lend, Funds.release]
    omega

def LockedWithinRisk (s : State) : Prop := s.world.pool.lockedLiquidity ≤ atRisk s.line.book

theorem locked_le_atRisk (h : Reachable Deployed (Step d) s) :
    s.world.pool.lockedLiquidity ≤ atRisk s.line.book := by
  have hstart : ∀ s, Deployed s → LockedWithinRisk s := by
    intro s h0
    rw [LockedWithinRisk, h0.pool, h0.line]
    exact Int.le_refl 0
  have hstep : ∀ s l s', Reachable Deployed (Step d) s → LockedWithinRisk s → Step d s l s' →
      LockedWithinRisk s' := by
    intro s l s' hreach hle hstep
    exact Step.locked_le_atRisk hstep (invariant_of_reachable hreach) hle
  exact h.invariant hstart hstep

theorem Deployed.lockedExact (h : Deployed s) : LockedExact s := by
  rw [LockedExact, h.pool, h.line]
  rfl

/-- In a run from deployment the lock is the money at risk in every state,
exactly when each step releases its own loan's exposure only. -/
theorem lockedExact_iff_own_released (h : Run (Step d) s₀ tr s) (h0 : Deployed s₀) :
    AllStates LockedExact tr s ↔ ∀ x ∈ tr, ReleasesOwnLock x.1 x.2 :=
  h.states_iff_steps h0 h0.lockedExact fun _ _ _ hr hp hs =>
    Step.lockedExact_iff hs (invariant_of_reachable hr) hp

/-- Borrower `21` takes a loan and pays `300` of it. -/
theorem lockedExact_iff_own_released_sample : ∃ (tr : List (State × Label)) (s : State),
    s.world.pool.lockedLiquidity = 570 ∧ AllStates LockedExact tr s := by
  have hrun : (replay (take .sample) sampleStart
      (configure ++ [openLoan 21, repay 21 1 300])).toOption.map
      (fun r => (r.2.world.pool.lockedLiquidity, decide (∀ x ∈ r.1, ReleasesOwnLock x.1 x.2)))
        = some (570, true) := by decide +kernel
  obtain ⟨tr, s, hr, hobs⟩ := replay_observed hrun
  obtain ⟨hlocked, hsteps⟩ := Prod.mk.injEq .. ▸ hobs
  have hrun : Run (Step .sample) sampleStart tr s := run_of_replay (by decide) hr
  exact ⟨tr, s, hlocked,
    (lockedExact_iff_own_released hrun sampleStart_deployed).mpr (of_decide_eq_true hsteps)⟩

/-- Paid in full, a loan of `1000` of which the pool lent `800` releases `1000`:
`600` stay locked while the other loan has `800` at risk. -/
theorem repayment_unlocks_other_loan :
    ¬∀ s, Reachable Deployed (Step .sample) s → LockedExact s := by
  intro hall
  have hrun : (replay (take .sample) sampleStart
      (configure ++ [openLoan 21, openLoan 22, repay 21 1 1070])).toOption.map
      (fun r => decide (LockedExact r.2)) = some false := by decide +kernel
  obtain ⟨tr, s, hr, hobs⟩ := replay_observed hrun
  have hreach : Reachable Deployed (Step .sample) s :=
    (run_of_replay (by decide) hr).reachable sampleStart_deployed
  exact of_decide_eq_false hobs (hall s hreach)

end StepFi.Protocol

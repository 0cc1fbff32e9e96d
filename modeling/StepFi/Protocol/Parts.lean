import StepFi.Protocol.Ordering
import StepFi.CreditLine.Waterfall
import StepFi.CreditLine.Accrual

/-!
# Paying in parts

Payments in parts that go through lead to what one payment of their sum leads to, in
the same ledger. The loan, the debt, the score and what the pool has lent come out the
same (`parts_pay_alike`). Only the shares of the interest are rounded for each part
anew, so that a part more can move one unit from the providers and one from the
treasury to the merchant fund.
-/

namespace StepFi.LiquidityPool

/-- Each floored share loses at most a unit when the interest comes in two parts. -/
theorem lpShare_add {x y : Int} (hx : 0 ≤ x) (hy : 0 ≤ y) :
    lpShare x + lpShare y ≤ lpShare (x + y) ∧ lpShare (x + y) ≤ lpShare x + lpShare y + 1 := by
  have hshare : ∀ z : Int, 0 ≤ z → lpShare z = z * 8500 / 10000 := fun z hz =>
    Int.tdiv_eq_ediv_of_nonneg (show 0 ≤ z * 8500 by omega)
  rw [hshare x hx, hshare y hy, hshare (x + y) (by omega)]
  omega

theorem protocolShare_add {x y : Int} (hx : 0 ≤ x) (hy : 0 ≤ y) :
    protocolShare x + protocolShare y ≤ protocolShare (x + y) ∧
      protocolShare (x + y) ≤ protocolShare x + protocolShare y + 1 := by
  have hshare : ∀ z : Int, 0 ≤ z → protocolShare z = z * 1000 / 10000 := fun z hz =>
    Int.tdiv_eq_ediv_of_nonneg (show 0 ≤ z * 1000 by omega)
  rw [hshare x hx, hshare y hy, hshare (x + y) (by omega)]
  omega

end StepFi.LiquidityPool

namespace StepFi.Protocol

open Lib CreditLine

variable {d : Deployment} {e : Sharing} {loan : Loan} {now id : Nat}
variable {schedule : List RepaymentInstallment}

/-! ## The interest -/

theorem net_append (xs ys : List Transfer) (a : Address) :
    Token.net (xs ++ ys) a = Token.net xs a + Token.net ys a := by
  simp only [Token.net, List.map_append, List.sum_append]

/-- What a unit paid to the recipient is to the account `a`. -/
def toward (d : Deployment) (recipient : Option Address) (a : Address) : Int :=
  match recipient with
  | some r => (if a = r then 1 else 0) - (if a = d.pool then 1 else 0)
  | none => 0

theorem net_feeTransfer (recipient : Option Address) {amount : Int} (h : 0 ≤ amount) (a : Address) :
    Token.net (feeTransfer d recipient amount) a = amount * toward d recipient a := by
  unfold feeTransfer toward
  cases recipient with
  | none => simp [Token.net]
  | some r =>
    dsimp only
    by_cases hpos : 0 < amount
    · simp only [if_pos hpos, Token.net, List.map_cons, List.map_nil, List.sum_cons, List.sum_nil,
        Int.mul_sub, mul_ite, Int.mul_one, Int.mul_zero, Int.add_zero]
    · obtain rfl : amount = 0 := by omega
      simp [Token.net]

theorem net_interest {interest : Int} (h : 0 ≤ interest) (a : Address) :
    Token.net (interestTransfers d e interest) a
      = LiquidityPool.protocolShare interest * toward d e.treasury a
        + LiquidityPool.merchantShare interest * toward d e.merchantFund a := by
  unfold interestTransfers
  by_cases hpos : 0 < interest
  · obtain ⟨hl, hq, hm⟩ := LiquidityPool.shares_nonneg hpos
    rw [if_pos hpos, net_append, net_feeTransfer _ hq, net_feeTransfer _ hm]
  · obtain rfl : interest = 0 := by omega
    have hq : LiquidityPool.protocolShare 0 = 0 := by decide
    have hm : LiquidityPool.merchantShare 0 = 0 := by decide
    rw [if_neg hpos, hq, hm, Int.zero_mul, Int.zero_mul]
    rfl

/-- To any account the interest in two parts is the interest at once, up to two
units. -/
theorem net_interest_add {x y : Int} (hx : 0 ≤ x) (hy : 0 ≤ y) (a : Address) :
    Token.net (interestTransfers d e x) a + Token.net (interestTransfers d e y) a
        ≤ Token.net (interestTransfers d e (x + y)) a + 2 ∧
      Token.net (interestTransfers d e (x + y)) a
        ≤ Token.net (interestTransfers d e x) a + Token.net (interestTransfers d e y) a + 2 := by
  have hlp := LiquidityPool.lpShare_add hx hy
  have hq := LiquidityPool.protocolShare_add hx hy
  have hsum := LiquidityPool.shares_sum x
  have hsum' := LiquidityPool.shares_sum y
  have hsum'' := LiquidityPool.shares_sum (x + y)
  rw [net_interest hx, net_interest hy, net_interest (Int.add_nonneg hx hy)]
  -- the pool only gives, and the others only take
  by_cases hp : a = d.pool
  · subst hp
    have hgives : ∀ r, toward d r d.pool = 0 ∨ toward d r d.pool = -1 := by
      intro r
      unfold toward
      split
      · split <;> simp
      · exact .inl rfl
    rcases hgives e.treasury with ht | ht <;> rcases hgives e.merchantFund with hm | hm <;>
      rw [ht, hm] <;> omega
  · have htakes : ∀ r, toward d r a = 0 ∨ toward d r a = 1 := by
      intro r
      unfold toward
      split
      · rw [if_neg hp]
        split <;> simp
      · exact .inl rfl
    rcases htakes e.treasury with ht | ht <;> rcases htakes e.merchantFund with hm | hm <;>
      rw [ht, hm] <;> omega

/-- What passes through an account adds up. -/
theorem net_passedOn (source through target : Address) (m k : Int) (a : Address) :
    Token.net [⟨source, through, m⟩, ⟨through, target, m⟩] a
        + Token.net [⟨source, through, k⟩, ⟨through, target, k⟩] a
      = Token.net [⟨source, through, m + k⟩, ⟨through, target, m + k⟩] a := by
  simp only [Token.net, List.map_cons, List.map_nil, List.sum_cons, List.sum_nil]
  split_ifs <;> omega

/-! ## One payment after another -/

/-- The posting `z` is `x` and `y` together, up to the rounding of the interest. -/
structure Merges (x y z : Posting) : Prop where
  first : x.loan.loanId = z.loan.loanId
  borrower : x.loan.borrower = z.loan.borrower
  loan : y.loan = z.loan
  debt : x.debt + y.debt = z.debt
  principal : x.principal + y.principal = z.principal
  reward : x.reward + y.reward = z.reward
  gain : x.gain + y.gain ≤ z.gain ∧ z.gain ≤ x.gain + y.gain + 1
  net : ∀ a, Token.net x.transfers a + Token.net y.transfers a ≤ Token.net z.transfers a + 2 ∧
    Token.net z.transfers a ≤ Token.net x.transfers a + Token.net y.transfers a + 2

theorem gain_eq {interest : Int} (h : 0 ≤ interest) :
    (if 0 < interest then LiquidityPool.lpShare interest else 0)
      = LiquidityPool.lpShare interest := by
  split
  · rfl
  · obtain rfl : interest = 0 := by omega
    decide

/-- A payment that is not the last leaves the loan to go on with. -/
theorem repaid_active {loan : Loan} {amount : Int} (hactive : loan.status = .active)
    (hrest : loan.remainingBalance ≠ amount) :
    loan.repaid amount loan.repaymentSchedule = loan.paidDown amount := by
  simp only [Loan.repaid, hrest, if_false, ← hactive]
  rfl

/-- Nothing accrues again at the same time. -/
theorem repaid_accrued {a : Int} (hactive : loan.status = .active)
    (hs : (loan.accrued now).Sound) (ha : 0 < a) (hle : a ≤ (loan.accrued now).remainingBalance) :
    lateFee now ((loan.accrued now).repaid a loan.repaymentSchedule) = 0 := by
  have hs' := hs.repaid hactive ha hle loan.repaymentSchedule
  have hless : ((loan.accrued now).repaid a loan.repaymentSchedule).remainingBalance
      ≤ (loan.accrued now).remainingBalance := by
    show (loan.accrued now).remainingBalance - a ≤ _
    omega
  have hfee : lateFee now ((loan.accrued now).repaid a loan.repaymentSchedule)
      ≤ lateFee now (loan.accrued now) := lateFee_mono rfl rfl hless
  rw [lateFee_accrued] at hfee
  exact Int.le_antisymm hfee (lateFee_nonneg hs'.remaining_nonneg)

theorem payments_merge {a b : Int} {first : Loan} (hactive : loan.status = .active)
    (hs : (loan.accrued now).Sound) (ha : 0 < a) (hb : 0 < b)
    (hle : a + b ≤ (loan.accrued now).remainingBalance)
    (hfirst : first = (loan.accrued now).repaid a loan.repaymentSchedule) :
    Merges (payment d e now loan a loan.repaymentSchedule)
      (payment d e now first b first.repaymentSchedule)
      (payment d e now loan (a + b) loan.repaymentSchedule) := by
  have hrest : (loan.accrued now).remainingBalance ≠ a := by omega
  have hfee : lateFee now first = 0 := hfirst ▸ repaid_accrued hactive hs ha (by omega)
  have haccrued : first.accrued now = first := charged_of_no_fee hfee
  have hdown : first = (loan.accrued now).paidDown a :=
    hfirst.trans (repaid_active hactive hrest)
  have htwice : first.paidDown b = (loan.accrued now).paidDown (a + b) :=
    hdown ▸ paidDown_paidDown (Int.le_of_lt hb)
  have hremaining : first.remainingBalance = (loan.accrued now).remainingBalance - a :=
    congrArg Loan.remainingBalance hdown
  have hs₁ : first.Sound := hfirst ▸ hs.repaid hactive ha (by omega) loan.repaymentSchedule
  obtain ⟨hj₁, hsum₁⟩ := (allocate_spec hs (Int.le_of_lt ha) (by omega)).interestFeeLate
  obtain ⟨hj₂, hsum₂⟩ := (allocate_spec hs₁ (Int.le_of_lt hb) (by omega)).interestFeeLate
  have hp₁ := (allocate_spec hs (Int.le_of_lt ha) (by omega)).principal.1
  have hp₂ := (allocate_spec hs₁ (Int.le_of_lt hb) (by omega)).principal.1
  obtain ⟨hj, hsum⟩ := (allocate_spec hs (show 0 ≤ a + b by omega) hle).interestFeeLate
  have hprincipal : (allocate (loan.accrued now) a).principalPaid + (allocate first b).principalPaid
      = (allocate (loan.accrued now) (a + b)).principalPaid := by
    have hleft : first.principalOutstanding - (allocate first b).principalPaid
        = (loan.accrued now).principalOutstanding
          - (allocate (loan.accrued now) (a + b)).principalPaid :=
      congrArg Loan.principalOutstanding htwice
    have hbefore : first.principalOutstanding = (loan.accrued now).principalOutstanding
        - (allocate (loan.accrued now) a).principalPaid := congrArg Loan.principalOutstanding hdown
    omega
  have hinterest : (allocate (loan.accrued now) (a + b)).interestFeeLate
      = (allocate (loan.accrued now) a).interestFeeLate + (allocate first b).interestFeeLate := by
    omega
  have hclosing : first.remainingBalance = b ↔ (loan.accrued now).remainingBalance = a + b := by
    omega
  have hschedule : first.repaymentSchedule = loan.repaymentSchedule := by
    rw [hfirst]
    rfl
  have hborrower : first.borrower = loan.borrower := by
    rw [hfirst]
    rfl
  have hguarantee : first.guaranteeAmount = loan.guaranteeAmount := by
    rw [hfirst]
    rfl
  have hlast : lastDueDate first = lastDueDate loan := by simp only [lastDueDate, hschedule]
  have hscore : scoreIncrease now first = scoreIncrease now loan :=
    congrArg (if now < · then 15 else 10) hlast
  constructor
  case first => rfl
  case borrower => rfl
  case loan =>
    simp only [payment, haccrued, Loan.repaid, htwice, hclosing, hschedule]
  case debt =>
    simp only [payment, hfee]
    omega
  case principal =>
    simp only [payment, haccrued]
    omega
  case reward =>
    simp only [payment, haccrued, hrest, hclosing, hscore, false_and, if_false, Nat.zero_add]
  case gain =>
    simp only [payment, haccrued, hinterest, gain_eq hj₁, gain_eq hj₂,
      gain_eq (Int.add_nonneg hj₁ hj₂)]
    exact LiquidityPool.lpShare_add hj₁ hj₂
  case net =>
    intro acc
    have hparts := net_interest_add (d := d) (e := e) hj₁ hj₂ acc
    have hpassed := net_passedOn loan.borrower d.creditLine d.pool a b acc
    simp only [payment, haccrued, hrest, hclosing, hborrower, hguarantee, if_false, net_append,
      hinterest, List.append_nil]
    omega

/-! ## Any number of parts -/

/-- The state `v` is `w`, but for the order of transfers and what `k` roundings of
the interest moved. -/
structure Near (k : Nat) (v w : Tally) : Prop where
  line : v.line = w.line
  pool : v.pool = { w.pool with totalLiquidity := v.pool.totalLiquidity }
  reputation : v.reputation = w.reputation
  vendors : v.vendors = w.vendors
  parameters : v.parameters = w.parameters
  liquidity : v.pool.totalLiquidity ≤ w.pool.totalLiquidity ∧
    w.pool.totalLiquidity ≤ v.pool.totalLiquidity + k
  balance : ∀ a, v.balance a ≤ w.balance a + 2 * k ∧ w.balance a ≤ v.balance a + 2 * k

theorem Near.refl (v : Tally) : Near 0 v v where
  line := rfl
  pool := rfl
  reputation := rfl
  vendors := rfl
  parameters := rfl
  liquidity := by omega
  balance := by omega

theorem Near.sharing {k : Nat} {v w : Tally} (h : Near k v w) : v.sharing = w.sharing := by
  unfold Tally.sharing
  rw [h.pool, h.line]

/-- A record written twice, with the debt changed twice. -/
theorem setLoan_again {p : Storage} {old new : Loan} (hid : old.loanId = new.loanId)
    (hb : old.borrower = new.borrower) (m k : Int) :
    let q := setLoan old (setUserActiveDebt old.borrower (p.userActiveDebt old.borrower + m) p)
    setLoan new (setUserActiveDebt new.borrower (q.userActiveDebt new.borrower + k) q)
      = setLoan new (setUserActiveDebt new.borrower
          (p.userActiveDebt new.borrower + (m + k)) p) := by
  intro q
  have hdebt : q.userActiveDebt new.borrower = p.userActiveDebt new.borrower + m := by
    rw [← hb]
    exact Function.update_self ..
  have hswap : ∀ debt, setUserActiveDebt new.borrower debt q
      = setLoan old (setUserActiveDebt new.borrower debt p) := by
    intro debt
    show setLoan old (setUserActiveDebt new.borrower debt (setUserActiveDebt old.borrower _ p)) = _
    rw [hb, setUserActiveDebt_idem]
  rw [hswap, setLoan_setLoan hid.symm, hdebt, Int.add_assoc]

theorem writeScore_again (b : Address) (m k : Nat) (p : Reputation.Storage) :
    let q := Reputation.writeScore b (p.scores b + m) p
    Reputation.writeScore b (q.scores b + k) q
      = Reputation.writeScore b (p.scores b + (m + k)) p := by
  intro q
  have hscore : q.scores b = p.scores b + m := Function.update_self ..
  rw [hscore, Nat.add_assoc]
  exact congrArg (fun scores => { p with scores }) (Function.update_idem ..)

/-- One part more. -/
theorem Near.merge {k : Nat} {v w : Tally} {x y z : Posting} (h : Near k v (x.apply w))
    (hm : Merges x y z) : Near (k + 1) (y.apply v) (z.apply w) where
  line := by
    have htwice := setLoan_again (p := w.line) hm.first hm.borrower x.debt y.debt
    rw [hm.debt] at htwice
    simp only [Posting.apply, h.line, hm.loan]
    exact htwice
  pool := by
    have hlocked : max 0 (max 0 (w.pool.lockedLiquidity - x.principal) - (y.principal : Int))
        = max 0 (w.pool.lockedLiquidity - z.principal) := by
      have := hm.principal
      omega
    simp only [Posting.apply]
    rw [h.pool]
    simp only [Posting.apply, hlocked]
  reputation := by
    have htwice := writeScore_again x.loan.borrower x.reward y.reward w.reputation
    rw [hm.reward] at htwice
    simp only [Posting.apply, h.reputation, hm.loan, ← hm.borrower]
    exact htwice
  vendors := h.vendors
  parameters := h.parameters
  liquidity := by
    obtain ⟨hlo, hhi⟩ := h.liquidity
    have hgain := hm.gain
    simp only [Posting.apply] at hlo hhi ⊢
    omega
  balance := by
    intro a
    have hbefore := h.balance a
    have hnet := hm.net a
    simp only [Posting.apply] at hbefore ⊢
    omega

/-- A payment at `now` on the loan `id`, by whoever owes it. -/
structure Label.PaysOn (id now : Nat) (l : Label) : Prop where
  time : l.env.timestamp = now
  call : ∃ borrower amount, l.action = .line (.repayLoan borrower id amount)

def Label.amount (l : Label) : Int :=
  match l.action with
  | .line (.repayLoan _ _ amount) => amount
  | _ => 0

section Parts

variable {s s' t u : State} {l : Label} {tr : List (State × Label)}

theorem Step.paid (hi : Invariant d s) (h : Step d s l s') (hl : l.PaysOn id now) :
    ∃ loan, Paid d now id l.amount s s' loan loan.repaymentSchedule := by
  obtain ⟨-, -, htaken⟩ := h
  obtain ⟨env, action⟩ := l
  obtain ⟨rfl, borrower, amount, rfl⟩ := hl
  obtain ⟨⟨r, t⟩, hsettle, rfl⟩ := map_ok.mp htaken
  exact settle_paid hi.book (fun _ => rfl) hsettle

theorem recorded_loan {p q : Storage} {written : Loan} {debt : Int} (hid : written.loanId = id)
    (hline : q = setLoan written (setUserActiveDebt written.borrower debt p)) :
    q.book.loan id = some written := by
  subst hid
  rw [hline, book_setLoan]
  exact Function.update_self ..

/-- After a run of payments on a loan, the state is near the one that their sum would
have led to at once. -/
theorem Run.parts (hs : Reachable Deployed (Step d) s) (h : Run (Step d) s tr t)
    (hparts : ∀ l ∈ tr.map Prod.snd, l.PaysOn id now) (hne : tr ≠ []) :
    ∃ loan amount, ((tr.map Prod.snd).map Label.amount).sum = amount ∧
      s.line.book.loan id = some loan ∧ loan.status = .active ∧ (loan.accrued now).Sound ∧
      0 < amount ∧ amount ≤ (loan.accrued now).remainingBalance ∧
      Near (tr.length - 1) t.tally
        ((payment d s.tally.sharing now loan amount loan.repaymentSchedule).apply s.tally) := by
  have hb := (invariant_of_reachable hs).book
  induction h with
  | nil => exact absurd rfl hne
  | @snoc tr t u l hr hl ih =>
    have ht : Reachable Deployed (Step d) t := hs.run hr
    rw [List.map_append] at hparts
    obtain ⟨hbefore, hlast⟩ := List.forall_mem_append.mp hparts
    obtain ⟨found, hpaid⟩ := hl.paid (invariant_of_reachable ht)
      (hlast l (List.mem_singleton_self l))
    by_cases hfirst : tr = []
    · obtain rfl : t = s := by
        cases hr with
        | nil => rfl
        | snoc => simp at hfirst
      subst hfirst
      refine ⟨found, l.amount, by simp, hpaid.stored, hpaid.active, hpaid.sound, hpaid.pos,
        hpaid.le, ?_⟩
      rw [hpaid.posted]
      exact Near.refl _
    · obtain ⟨loan, amount, hsum, hloan, hactive, hsound, hpos, hle, hnear⟩ := ih hbefore hfirst
      -- the record the last payment finds is the one the payments before it left
      have hstored : found = (loan.accrued now).repaid amount loan.repaymentSchedule :=
        Option.some.inj (hpaid.stored.symm.trans
          (recorded_loan (hb.keyed id loan hloan) hnear.line))
      have hagain : found.accrued now = found :=
        charged_of_no_fee (hstored ▸ repaid_accrued hactive hsound hpos hle)
      have hrest : amount + l.amount ≤ (loan.accrued now).remainingBalance := by
        have hleft : found.remainingBalance = (loan.accrued now).remainingBalance - amount := by
          rw [hstored]
          rfl
        have hle' := hpaid.le
        rw [hagain] at hle'
        omega
      have hmerged := hnear.merge (payments_merge hactive hsound hpos hpaid.pos hrest hstored)
      have hlength : (tr ++ [(t, l)]).length - 1 = tr.length - 1 + 1 := by
        have := List.length_pos_iff.mpr hfirst
        simp only [List.length_append, List.length_singleton]
        omega
      have hpos' := hpaid.pos
      refine ⟨loan, amount + l.amount, ?_, hloan, hactive, hsound, by omega, hrest, ?_⟩
      · rw [List.map_append, List.map_append, List.sum_append, hsum]
        exact congrArg (amount + ·) List.sum_singleton
      · rw [hpaid.posted, hnear.sharing, hlength]
        exact hmerged

/-- From every reachable state, payments of one ledger on one loan lead to the state
that a payment of their sum leads to, but for the order of transfers and what each
part more can round away: one unit of the pool's liquidity, and two of an account's
balance. -/
theorem parts_pay_alike (hs : Reachable Deployed (Step d) s) (h : Run (Step d) s tr t)
    (hu : Step d s l u) (hparts : ∀ m ∈ tr.map Prod.snd, m.PaysOn id now)
    (hl : l.PaysOn id now) (hsum : ((tr.map Prod.snd).map Label.amount).sum = l.amount) :
    Near (tr.length - 1) t.tally u.tally := by
  obtain ⟨loan, hwhole⟩ := hu.paid (invariant_of_reachable hs) hl
  have hne : tr ≠ [] := by
    intro hnil
    subst hnil
    have hpos := hwhole.pos
    simp at hsum
    omega
  obtain ⟨loan', amount, hamount, hloan, -, -, -, -, hnear⟩ := Run.parts hs h hparts hne
  obtain rfl := Option.some.inj (hwhole.stored.symm.trans hloan)
  obtain rfl : l.amount = amount := hsum.symm.trans hamount
  rw [hwhole.posted]
  exact hnear

end Parts

/-- The loan of `1070` paid in three parts, or at once: the treasury gets `6` of the
`70` of interest and fees, or `7`. -/
theorem parts_pay_alike_sample : ∃ t u : State,
    t.world.token.balance 40 = 6 ∧ u.world.token.balance 40 = 7 ∧ Near 2 t.tally u.tally := by
  have hrun : (replay (take .sample) sampleStart (configure ++ [openLoan 21])).toOption.map
      (fun r => ((replay (take .sample) r.2
          [repay 21 1 5, repay 21 1 5, repay 21 1 1060]).toOption.map id).bind fun x =>
        ((take .sample r.2 (repay 21 1 1070)).toOption.map id).map fun u =>
          decide (x.2.world.token.balance 40 = 6 ∧ u.world.token.balance 40 = 7))
      = some (some true) := by decide +kernel
  obtain ⟨tr, s, hr, hobs⟩ := replay_observed hrun
  have hreach := (run_of_replay (by decide) hr).reachable sampleStart_deployed
  obtain ⟨x, hx, hobs⟩ := Option.bind_eq_some_iff.mp hobs
  obtain ⟨u, hu, hfees⟩ := Option.map_eq_some_iff.mp hobs
  obtain ⟨tr', t, ht, rfl⟩ := replay_observed hx
  obtain ⟨v, htaken, rfl⟩ := toOption_map_some.mp hu
  obtain ⟨htreasury, htreasury'⟩ := of_decide_eq_true hfees
  have hlabels : tr'.map Prod.snd = [repay 21 1 5, repay 21 1 5, repay 21 1 1060] :=
    replay_labels ht
  have hparts : ∀ m ∈ tr'.map Prod.snd, m.PaysOn 1 200 := by
    rw [hlabels]
    simp only [List.forall_mem_cons, List.not_mem_nil, false_imp_iff, implies_true, and_true]
    exact ⟨⟨rfl, 21, 5, rfl⟩, ⟨rfl, 21, 5, rfl⟩, ⟨rfl, 21, 1060, rfl⟩⟩
  have hsum : ((tr'.map Prod.snd).map Label.amount).sum = (repay 21 1 1070).amount := by
    rw [hlabels]
    rfl
  have hlength : tr'.length - 1 = 2 := by
    have hthree := congrArg List.length hlabels
    simp only [List.length_map, List.length_cons, List.length_nil] at hthree
    omega
  have hwhole : Step .sample s (repay 21 1 1070) v := ⟨by decide, by decide, htaken⟩
  exact ⟨t, v, htreasury, htreasury', hlength ▸ parts_pay_alike hreach
    (run_of_replay (by decide) ht) hwhole hparts ⟨rfl, 21, 1070, rfl⟩ hsum⟩

end StepFi.Protocol

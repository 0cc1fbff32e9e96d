import StepFi.CreditLine.Spec

/-!
# The terms a loan is offered on

What a request must meet and the record it is answered with, as one condition
(`Acceptable`) and one value (`offer`); and from these exactly when a loan is
created or requested and the storage it leaves.
-/

namespace StepFi.CreditLine

open Lib

variable {W : Type} (c : Clients W)

/-! ## The offer -/

/-- An amount of basis points, rounded down. -/
def bpsOf (base bps : Int) : Int := (base * bps).tdiv bpsDenominator

/-- What a borrower with `score` owes for the request, with interest and fee. -/
def balanceFor (p : Storage) (w : W) (r : LoanRequest) (score : Nat) : Int :=
  r.totalAmount + bpsOf r.totalAmount (interestRateBps c p w score)
    + bpsOf r.totalAmount serviceFeeBps

/-- The record a request is answered with. -/
def offer (env : Env) (r : LoanRequest) (score : Nat) (status : LoanStatus) (p : Storage) (w : W) :
    Loan where
  loanId := p.loanCounter + 1
  borrower := r.user
  vendor := r.vendor
  totalAmount := r.totalAmount
  guaranteeAmount := r.guaranteeAmount
  interestRateBps := interestRateBps c p w score
  interestAmount := bpsOf r.totalAmount (interestRateBps c p w score)
  serviceFeeAmount := bpsOf r.totalAmount serviceFeeBps
  principalOutstanding := r.totalAmount
  interestOutstanding := bpsOf r.totalAmount (interestRateBps c p w score)
  serviceFeeOutstanding := bpsOf r.totalAmount serviceFeeBps
  remainingBalance := balanceFor c p w r score
  repaymentSchedule := r.repaymentSchedule
  status
  loanType := r.loanType
  createdAt := env.timestamp
  fundedAt := 0
  lateFeesOutstanding := 0
  lateFeeAccrualTimestamp := 0

/-- What the request of a borrower with `score` has to meet. -/
structure Acceptable (p : Storage) (w : W) (r : LoanRequest) (score : Nat) : Prop where
  total_pos : 0 < r.totalAmount
  guarantee_pos : 0 < r.guaranteeAmount
  guarantee_le : r.guaranteeAmount ≤ r.totalAmount
  percent_fits : I128.Fits (r.totalAmount * (getProtocolParameters c p w).minGuaranteePercent)
  floor_fits : I128.Fits
    ((r.totalAmount * (getProtocolParameters c p w).minGuaranteePercent).tdiv 100)
  floor : (r.totalAmount * (getProtocolParameters c p w).minGuaranteePercent).tdiv 100
    ≤ r.guaranteeAmount
  vendor : validateVendor c p w r.vendor = .ok ()
  interest_fits : I128.Fits (r.totalAmount * interestRateBps c p w score)
  fee_fits : I128.Fits (r.totalAmount * serviceFeeBps)
  balance_fits : I128.Fits (balanceFor c p w r score)
  debt_fits : I128.Fits (p.userActiveDebt r.user + balanceFor c p w r score)
  limit : p.userActiveDebt r.user + balanceFor c p w r score ≤ creditLimit score
  counter : p.loanCounter + 1 < 2 ^ 64

variable {c} {env : Env} {p p' : Storage} {w w' : W} {s s' : State W} {r : LoanRequest}
variable {score id : Nat} {status : LoanStatus} {built : Loan × Storage} {loan : Loan}

theorem validateGuarantee_ok {total guarantee : Int} {u : Unit} :
    validateGuarantee c p w total guarantee = .ok u ↔
      (0 < total ∧ 0 < guarantee) ∧ guarantee ≤ total ∧
        I128.Fits (total * (getProtocolParameters c p w).minGuaranteePercent) ∧
        I128.Fits ((total * (getProtocolParameters c p w).minGuaranteePercent).tdiv 100) ∧
        (total * (getProtocolParameters c p w).minGuaranteePercent).tdiv 100 ≤ guarantee := by
  simp only [validateGuarantee, bind_ok, ensure_ok, exists_const, mulI128_ok, divI128_ok]
  constructor
  · rintro ⟨hpos, hle, _, ⟨hfits, rfl⟩, _, ⟨-, hfloor, rfl⟩, hguarantee⟩
    exact ⟨hpos, hle, hfits, hfloor, hguarantee⟩
  · rintro ⟨hpos, hle, hfits, hfloor, hguarantee⟩
    exact ⟨hpos, hle, _, ⟨hfits, rfl⟩, _, ⟨by decide, hfloor, rfl⟩, hguarantee⟩

theorem bpsOf_nonneg {base bps : Int} (h0 : 0 ≤ base) (h1 : 0 ≤ bps) : 0 ≤ bpsOf base bps :=
  Int.tdiv_nonneg (Int.mul_nonneg h0 h1) (by decide)

theorem bpsOf_le {base bps : Int} (h0 : 0 ≤ base) (h1 : 0 ≤ bps) : bpsOf base bps ≤ base * bps := by
  have hprod := Int.mul_nonneg h0 h1
  unfold bpsOf
  rw [Int.tdiv_eq_ediv_of_nonneg hprod]
  exact Int.ediv_le_self _ hprod

/-- The scaled amount is the larger one, so it is the one that has to fit. -/
theorem calculateBpsAmount_ok {base bps x : Int} (h0 : 0 ≤ base) (h1 : 0 ≤ bps) :
    calculateBpsAmount base bps = .ok x ↔ I128.Fits (base * bps) ∧ bpsOf base bps = x := by
  simp only [calculateBpsAmount, bind_ok, mulI128_ok, divI128_ok]
  constructor
  · rintro ⟨_, ⟨hfits, rfl⟩, -, -, rfl⟩
    exact ⟨hfits, rfl⟩
  · rintro ⟨hfits, rfl⟩
    exact ⟨_, ⟨hfits, rfl⟩, by decide, I128.fits_of_le hfits (bpsOf_nonneg h0 h1) (bpsOf_le h0 h1),
      rfl⟩

theorem incrementLoanCounter_ok {next : Nat × Storage} :
    incrementLoanCounter p = .ok next ↔ p.loanCounter + 1 < 2 ^ 64 ∧
      (p.loanCounter + 1, { p with loanCounter := p.loanCounter + 1 }) = next := by
  simp only [incrementLoanCounter, getLoanCounter, bind_ok, pure_ok, checkedU64_ok]
  constructor
  · rintro ⟨x, ⟨hlt, hx⟩, rfl⟩
    obtain rfl : x = p.loanCounter + 1 := by omega
    exact ⟨by omega, rfl⟩
  · rintro ⟨hlt, rfl⟩
    exact ⟨p.loanCounter + 1, ⟨by omega, by omega⟩, rfl⟩

theorem buildLoan_ok :
    buildLoan c env r score status p w = .ok built ↔ Acceptable c p w r score ∧
      (offer c env r score status p w, { p with loanCounter := p.loanCounter + 1 }) = built := by
  simp only [buildLoan, bind_ok, pure_ok, ensure_ok, exists_const, addI128_ok, getUserActiveDebt,
    incrementLoanCounter_ok, validateGuarantee_ok]
  constructor
  · rintro ⟨⟨⟨htotal, hpos⟩, hle, hpercent, hfits, hfloor⟩, _, hvendor, interest, hinterest,
      service, hservice, _, ⟨-, rfl⟩, _, ⟨hbalance, rfl⟩, _, ⟨hdebt, rfl⟩, hlimit, _,
      ⟨hcounter, rfl⟩, rfl⟩
    obtain ⟨hscaled, rfl⟩ := (calculateBpsAmount_ok (Int.le_of_lt htotal) (by omega)).mp hinterest
    obtain ⟨hfee, rfl⟩ := (calculateBpsAmount_ok (Int.le_of_lt htotal) (by decide)).mp hservice
    exact ⟨⟨htotal, hpos, hle, hpercent, hfits, hfloor, hvendor, hscaled, hfee, hbalance, hdebt,
      hlimit, hcounter⟩, rfl⟩
  · rintro ⟨h, rfl⟩
    have h0 := Int.le_of_lt h.total_pos
    have hfee0 : 0 ≤ bpsOf r.totalAmount serviceFeeBps := bpsOf_nonneg h0 (by decide)
    have hi0 : 0 ≤ bpsOf r.totalAmount (interestRateBps c p w score) := bpsOf_nonneg h0 (by omega)
    have hpart : I128.Fits (r.totalAmount + bpsOf r.totalAmount (interestRateBps c p w score)) :=
      I128.fits_of_le h.balance_fits (by omega) (by unfold balanceFor; omega)
    exact ⟨⟨⟨h.total_pos, h.guarantee_pos⟩, h.guarantee_le, h.percent_fits, h.floor_fits, h.floor⟩,
      (), h.vendor, _, (calculateBpsAmount_ok h0 (by omega)).mpr ⟨h.interest_fits, rfl⟩, _,
      (calculateBpsAmount_ok h0 (by decide)).mpr ⟨h.fee_fits, rfl⟩, _, ⟨hpart, rfl⟩, _,
      ⟨h.balance_fits, rfl⟩, _, ⟨h.debt_fits, rfl⟩, h.limit, _, ⟨h.counter, rfl⟩, rfl⟩

/-- The lock is not among what an offer reads. -/
theorem acceptable_locked : Acceptable c { p with reentrancyLocked := true } w r score ↔
    Acceptable c p w r score :=
  ⟨fun ⟨h1, h2, h3, h4, h5, h6, h7, h8, h9, h10, h11, h12, h13⟩ =>
      ⟨h1, h2, h3, h4, h5, h6, h7, h8, h9, h10, h11, h12, h13⟩,
    fun ⟨h1, h2, h3, h4, h5, h6, h7, h8, h9, h10, h11, h12, h13⟩ =>
      ⟨h1, h2, h3, h4, h5, h6, h7, h8, h9, h10, h11, h12, h13⟩⟩

/-! ## Filing -/

/-- The storage after a record that was not there. -/
def filed (loan : Loan) (p : Storage) : Storage :=
  { setLoan loan p with
    userLoanCount := (p.index.append loan.borrower loan.loanId).count
    userLoanPage := (p.index.append loan.borrower loan.loanId).page }

theorem writeLoan_filed (hnone : p.book.loan loan.loanId = none) :
    writeLoan loan p = .ok p' ↔
      p.userLoanCount loan.borrower + 1 < 2 ^ 64 ∧ filed loan p = p' := by
  have hmissing : p.loans (loanShard loan.loanId) loan.loanId = none := hnone
  simp only [writeLoan, hmissing, Option.isNone_none, if_true, appendUserLoanIndex, bind_ok,
    pure_ok, checkedU64_ok]
  constructor
  · rintro ⟨next, ⟨hlt, hnext⟩, rfl⟩
    have hlt' : (p.userLoanCount loan.borrower : Int) + 1 < 2 ^ 64 := hlt
    have hnext' : (p.userLoanCount loan.borrower : Int) + 1 = next := hnext
    obtain rfl : next = p.userLoanCount loan.borrower + 1 := by omega
    exact ⟨by omega, rfl⟩
  · rintro ⟨hlt, rfl⟩
    refine ⟨p.userLoanCount loan.borrower + 1, ⟨?_, ?_⟩, rfl⟩
    · show (p.userLoanCount loan.borrower : Int) + 1 < 2 ^ 64
      omega
    · show (p.userLoanCount loan.borrower : Int) + 1 = _
      omega

/-! ## Creating, requesting and approving -/

/-- What both ways into a loan check of the request. -/
structure Admits (c : Clients W) (env : Env) (r : LoanRequest) (s : State W)
    (score : Nat) : Prop where
  auth : env.auths r.user = true
  unpaused : s.line.paused = false
  rated : validateReputation c s.line s.world r.user = .ok score
  acceptable : Acceptable c s.line s.world r score
  listed : s.line.userLoanCount r.user + 1 < 2 ^ 64

/-- The storage with a loan requested. -/
def requestedLine (c : Clients W) (env : Env) (r : LoanRequest) (score : Nat) (s : State W) :
    Storage :=
  filed (offer c env r score .pending s.line s.world)
    { s.line with loanCounter := s.line.loanCounter + 1 }

/-- The storage with a loan active from the start. -/
def createdLine (c : Clients W) (env : Env) (r : LoanRequest) (score : Nat) (s : State W) :
    Storage :=
  filed { offer c env r score .active s.line s.world with fundedAt := env.timestamp }
    (setUserActiveDebt r.user (s.line.userActiveDebt r.user + balanceFor c s.line s.world r score)
      { s.line with loanCounter := s.line.loanCounter + 1 })

theorem Acceptable.contribution_fits (h : Acceptable c p w r score) :
    I128.Fits (r.totalAmount - r.guaranteeAmount) := by
  have h0 := Int.le_of_lt h.total_pos
  have hfee := bpsOf_nonneg h0 (show (0 : Int) ≤ serviceFeeBps by decide)
  have hi := bpsOf_nonneg h0 (Int.natCast_nonneg (interestRateBps c p w score))
  have hg := h.guarantee_pos
  have hle := h.guarantee_le
  exact I128.fits_of_le h.balance_fits (by omega) (by unfold balanceFor; omega)

theorem fundLoanFromPool_ok {borrower vendor : Address} {guarantee contribution : Int} :
    fundLoanFromPool c env p borrower vendor guarantee contribution true w = .ok w' ↔
      ∃ pool w₁, p.liquidityPool = some pool ∧
        pullGuarantee c env p borrower guarantee w = .ok w₁ ∧
        if 0 < contribution then
          c.fundLoan (env.callFrom c.self []) pool c.self vendor contribution w₁ = .ok w'
        else w' = w₁ := by
  simp only [fundLoanFromPool, bind_ok, demand_ok, if_true]
  by_cases hpos : 0 < contribution
  · simp only [if_pos hpos]
    exact ⟨fun ⟨pool, hpool, w₁, h⟩ => ⟨pool, w₁, hpool, h⟩,
      fun ⟨pool, w₁, hpool, h⟩ => ⟨pool, hpool, w₁, h⟩⟩
  · simp only [if_neg hpos, Except.ok.injEq]
    exact ⟨fun ⟨pool, hpool, w₁, h₁, h₂⟩ => ⟨pool, w₁, hpool, h₁, h₂.symm⟩,
      fun ⟨pool, w₁, hpool, h₁, h₂⟩ => ⟨pool, hpool, w₁, h₁, h₂.symm⟩⟩

theorem createLoan_ok (hfresh : s.line.book.loan (s.line.loanCounter + 1) = none) :
    createLoan c env r s = .ok (id, s') ↔ ∃ score, Admits c env r s score ∧
      validateLiquidity c s.line s.world r.totalAmount r.guaranteeAmount = .ok () ∧
      s.line.reentrancyLocked = false ∧ id = s.line.loanCounter + 1 ∧
      (∃ w₁, pullGuarantee c env s.line r.user r.guaranteeAmount s.world = .ok w₁ ∧
        LendFlow c env s.line (offer c env r score .active s.line s.world) w₁ s'.world) ∧
      s'.line = createdLine c env r score s := by
  have hstored : ∀ x : Loan, x.loanId = s.line.loanCounter + 1 →
      ∀ debt, (setUserActiveDebt r.user debt { { s.line with reentrancyLocked := true } with
        loanCounter := s.line.loanCounter + 1 }).book.loan x.loanId = none := by
    intro x hx debt
    rw [hx]
    exact hfresh
  have hline : ∀ score, s.line.reentrancyLocked = false →
      exitNonReentrant (filed { offer c env r score .active s.line s.world with
        fundedAt := env.timestamp } (setUserActiveDebt r.user
          (s.line.userActiveDebt r.user + balanceFor c s.line s.world r score)
          { { s.line with reentrancyLocked := true } with
            loanCounter := s.line.loanCounter + 1 })) = createdLine c env r score s := by
    intro score hlock
    simp only [exitNonReentrant, createdLine, filed, setLoan, setUserActiveDebt, Storage.index,
      hlock]
  simp only [createLoan, bind_ok, pure_ok, exists_const, requireAuth_ok, requireNotPaused,
    ensure_ok, enterNonReentrant_ok, increaseUserActiveDebt_ok, subI128_ok, buildLoan_ok,
    validateGuarantee_ok, fundLoanFromPool_ok]
  constructor
  · rintro ⟨hauth, hpaused, -, _, -, score, hscore, _, hliquidity, _, ⟨hlock, rfl⟩, _,
      ⟨haccept, rfl⟩, _, ⟨-, rfl⟩, line, hwrite, _, ⟨-, rfl⟩, w', ⟨pool, w₁, hpool, h₁, h₂⟩, hres⟩
    obtain ⟨hlisted, rfl⟩ := (writeLoan_filed (hstored _ rfl _)).mp hwrite
    obtain ⟨rfl, rfl⟩ := Prod.mk.injEq .. ▸ hres
    exact ⟨score, ⟨hauth, hpaused, hscore, acceptable_locked.mp haccept, hlisted⟩, hliquidity,
      hlock, rfl,
      ⟨w₁, h₁, pool, hpool, h₂⟩, hline score hlock⟩
  · rintro ⟨score, hadmits, hliquidity, hlock, rfl, ⟨w₁, h₁, pool, hpool, h₂⟩, hs'⟩
    have haccept := hadmits.acceptable
    refine ⟨hadmits.auth, hadmits.unpaused, ⟨⟨haccept.total_pos, haccept.guarantee_pos⟩,
      haccept.guarantee_le, haccept.percent_fits, haccept.floor_fits, haccept.floor⟩, (),
      haccept.vendor, score, hadmits.rated, (), hliquidity, _, ⟨hlock, rfl⟩, _,
      ⟨acceptable_locked.mpr haccept, rfl⟩, _, ⟨haccept.debt_fits, rfl⟩, _,
      (writeLoan_filed (hstored _ rfl _)).mpr ⟨hadmits.listed, rfl⟩, _,
      ⟨haccept.contribution_fits, rfl⟩, s'.world, ⟨pool, w₁, hpool, h₁, h₂⟩, ?_⟩
    exact congrArg (Prod.mk _)
      (congrArg (fun line => State.mk line s'.world) ((hline score hlock).trans hs'.symm))

theorem requestLoan_ok (hfresh : s.line.book.loan (s.line.loanCounter + 1) = none) :
    requestLoan c env r s = .ok (id, s') ↔ ∃ score, Admits c env r s score ∧
      id = s.line.loanCounter + 1 ∧
      pullGuarantee c env s.line r.user r.guaranteeAmount s.world = .ok s'.world ∧
      s'.line = requestedLine c env r score s := by
  have hstored : ∀ score, (Storage.book { s.line with loanCounter := s.line.loanCounter + 1 }).loan
      (offer c env r score .pending s.line s.world).loanId = none := fun _ => hfresh
  simp only [requestLoan, bind_ok, pure_ok, exists_const, requireAuth_ok, requireNotPaused,
    ensure_ok, buildLoan_ok, validateGuarantee_ok]
  constructor
  · rintro ⟨hauth, hpaused, -, score, hscore, _, ⟨haccept, rfl⟩, w', hpull, line, hwrite, hres⟩
    obtain ⟨hlisted, rfl⟩ := (writeLoan_filed (hstored score)).mp hwrite
    obtain ⟨rfl, rfl⟩ := Prod.mk.injEq .. ▸ hres
    exact ⟨score, ⟨hauth, hpaused, hscore, haccept, hlisted⟩, rfl, hpull, rfl⟩
  · rintro ⟨score, hadmits, rfl, hpull, hs'⟩
    have haccept := hadmits.acceptable
    refine ⟨hadmits.auth, hadmits.unpaused, ⟨⟨haccept.total_pos, haccept.guarantee_pos⟩,
      haccept.guarantee_le, haccept.percent_fits, haccept.floor_fits, haccept.floor⟩, score,
      hadmits.rated, _, ⟨haccept, rfl⟩, s'.world, hpull, _,
      (writeLoan_filed (hstored score)).mpr
        ⟨hadmits.listed, rfl⟩, ?_⟩
    exact congrArg (Prod.mk _) (congrArg (fun line => State.mk line s'.world) hs'.symm)

end StepFi.CreditLine

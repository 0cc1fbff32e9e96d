import StepFi.LiquidityPool.Contract

/-!
# What each pool entry point does

One lemma for each entry point: from a successful call, the checks that passed
and the state it leaves, as fields of the state before. Nothing outside this
module unfolds an entry point of the pool.
-/

namespace StepFi.LiquidityPool

open Lib

variable {d : Deployment} {active : Address → Option Bool} {env : Env}
variable {p p' : Storage} {s s' : State}

/-! ## Helpers -/

@[simp] theorem addI128_ok {a b c : Int} :
    addI128 a b = .ok c ↔ I128.Fits (a + b) ∧ a + b = c := checkedI128_ok

@[simp] theorem subI128_ok {a b c : Int} :
    subI128 a b = .ok c ↔ I128.Fits (a - b) ∧ a - b = c := checkedI128_ok

@[simp] theorem mulI128_ok {a b c : Int} :
    mulI128 a b = .ok c ↔ I128.Fits (a * b) ∧ a * b = c := checkedI128_ok

@[simp] theorem divI128_ok {a b c : Int} :
    divI128 a b = .ok c ↔ b ≠ 0 ∧ I128.Fits (a.tdiv b) ∧ a.tdiv b = c := checkedDivI128_ok

@[simp] theorem enterNonReentrant_ok :
    enterNonReentrant p = .ok p' ↔
      p.reentrancyLocked = false ∧ { p with reentrancyLocked := true } = p' := by
  simp only [enterNonReentrant, bind_ok, pure_ok, ensure_ok, exists_const]

theorem seedDeadShares_eq (p : Storage) : seedDeadShares p =
    { p with totalShares := if p.totalShares = 0 then deadSharesAmount else p.totalShares } := by
  unfold seedDeadShares
  split <;> rfl

/-- The quoted price with shares outstanding: the floored quotient, at least `1`. -/
theorem sharePrice_spec {price : Int} (h : calculateSharePriceInternal p = .ok price)
    (hT : 0 ≤ p.totalLiquidity) (hS : 0 < p.totalShares) :
    price = max 1 ((p.totalLiquidity + deadSharesAmount) * sharePricePrecision
      / p.totalShares) := by
  have hne : p.totalShares ≠ 0 := by omega
  simp only [calculateSharePriceInternal, hne, if_false, bind_ok, pure_ok, addI128_ok,
    mulI128_ok, divI128_ok] at h
  obtain ⟨_, ⟨-, rfl⟩, _, ⟨-, rfl⟩, _, ⟨-, -, rfl⟩, rfl⟩ := h
  have h0 : 0 ≤ (p.totalLiquidity + deadSharesAmount) * sharePricePrecision := by
    simp only [deadSharesAmount, sharePricePrecision]
    omega
  rw [Int.tdiv_eq_ediv_of_nonneg h0]
  have hq : 0 ≤ (p.totalLiquidity + deadSharesAmount) * sharePricePrecision / p.totalShares :=
    Int.ediv_nonneg h0 (Int.le_of_lt hS)
  split <;> omega

/-! ## Liquidity providers -/

theorem deposit_spec {provider : Address} {amount k : Int}
    (h : deposit d env provider amount s = .ok (k, s')) :
    ∃ price, calculateSharePriceInternal (seedDeadShares s.pool) = .ok price ∧
      env.auths provider = true ∧ minAmount ≤ amount ∧ 0 < k ∧
      (amount * sharePricePrecision).tdiv price = k ∧
      I128.Fits (s.pool.totalLiquidity + amount) ∧ amount ≤ s.token.balance provider ∧
      s' = {
        pool := { seedDeadShares s.pool with
          lpShares :=
            Function.update s.pool.lpShares provider (s.pool.lpShares provider + k)
          totalShares := (seedDeadShares s.pool).totalShares + k
          totalLiquidity := s.pool.totalLiquidity + amount }
        token := s.token.move provider d.pool amount } := by
  simp only [deposit, bind_ok, pure_ok, requireAuth_ok, ensure_ok, exists_const,
    requireNotPaused, enterNonReentrant_ok, addI128_ok, mulI128_ok, divI128_ok,
    Token.transferAt_ok] at h
  obtain ⟨hauth, -, hmin, _, ⟨hlock, rfl⟩, price, hprice, _, ⟨-, rfl⟩, _, ⟨-, -, rfl⟩, hk,
    token, -, _, ⟨-, rfl⟩, _, ⟨-, rfl⟩, _, ⟨hfit, rfl⟩, ledger, ⟨-, -, -, hbal, rfl⟩, hres⟩ := h
  obtain ⟨rfl, rfl⟩ := Prod.mk.injEq .. ▸ hres
  refine ⟨price, ?_, hauth, hmin, hk, rfl, ?_, hbal, ?_⟩
  · simpa only [seedDeadShares_eq, calculateSharePriceInternal] using hprice
  · simpa only [seedDeadShares_eq] using hfit
  · simp only [exitNonReentrant, seedDeadShares_eq, hlock]

theorem withdraw_spec {provider : Address} {shares r : Int}
    (h : withdraw d env provider shares s = .ok (r, s')) :
    ∃ price, calculateSharePriceInternal s.pool = .ok price ∧
      env.auths provider = true ∧ 0 < shares ∧ shares ≤ s.pool.lpShares provider ∧
      (shares * price).tdiv sharePricePrecision = r ∧
      r ≤ s.pool.totalLiquidity - s.pool.lockedLiquidity ∧
      0 ≤ r ∧ r ≤ s.token.balance d.pool ∧
      s' = {
        pool := { s.pool with
          lpShares :=
            Function.update s.pool.lpShares provider (s.pool.lpShares provider - shares)
          totalShares := s.pool.totalShares - shares
          totalLiquidity := s.pool.totalLiquidity - r }
        token := s.token.move d.pool provider r } := by
  simp only [withdraw, bind_ok, pure_ok, requireAuth_ok, ensure_ok, exists_const,
    requireNotPaused, enterNonReentrant_ok, subI128_ok, mulI128_ok, divI128_ok,
    Token.transferAt_ok] at h
  obtain ⟨hauth, -, hpos, _, ⟨hlock, rfl⟩, hsh, price, hprice, _, ⟨-, rfl⟩, _, ⟨-, -, rfl⟩,
    _, ⟨-, rfl⟩, havail, _, ⟨-, rfl⟩, _, ⟨-, rfl⟩, _, ⟨-, rfl⟩, token, -, ledger,
    ⟨-, -, h0, hbal, rfl⟩, hres⟩ := h
  obtain ⟨rfl, rfl⟩ := Prod.mk.injEq .. ▸ hres
  refine ⟨price, ?_, hauth, hpos, hsh, rfl, havail, h0, hbal, ?_⟩
  · simpa only [calculateSharePriceInternal] using hprice
  · simp only [exitNonReentrant, hlock]

/-! ## Lending -/

/-- What the outflow window has counted in the ledger `sequence`. -/
def windowUsed (sequence : Nat) (p : Storage) : Int :=
  if p.outflowSeq ≠ sequence then 0 else p.outflowUsed

theorem chargeOutflowWindow_spec {available amount : Int} (h0 : 0 ≤ available)
    (h : chargeOutflowWindow env available amount p = .ok p') :
    (p.outflowCapBps = 0 ∧ p' = p) ∨
    (0 < p.outflowCapBps ∧
      windowUsed env.sequence p + amount ≤ available * p.outflowCapBps / totalBps ∧
      p' = { p with
        outflowSeq := env.sequence
        outflowUsed := windowUsed env.sequence p + amount }) := by
  unfold chargeOutflowWindow at h
  split at h
  · rename_i hcap
    simp only [bind_ok, pure_ok, mulI128_ok, divI128_ok, addI128_ok, subI128_ok, ensure_ok,
      exists_const] at h
    obtain ⟨_, ⟨-, rfl⟩, _, ⟨-, -, rfl⟩, _, ⟨-, rfl⟩, hle, _, -, rfl⟩ := h
    rw [Int.tdiv_eq_ediv_of_nonneg (Int.mul_nonneg h0 (by omega))] at hle
    exact .inr ⟨hcap, hle, rfl⟩
  · cases h
    exact .inl ⟨by omega, rfl⟩

theorem chargeMerchantExposure_spec {merchant : Address} {amount : Int}
    (h : chargeMerchantExposure merchant amount p = .ok p') :
    (0 < p.merchantExposureCap →
        p.merchantFunded merchant + amount ≤ p.merchantExposureCap) ∧
      p' = { p with merchantFunded :=
        Function.update p.merchantFunded merchant (p.merchantFunded merchant + amount) } := by
  simp only [chargeMerchantExposure, bind_ok, pure_ok, addI128_ok, ensure_ok, exists_const] at h
  obtain ⟨_, ⟨-, rfl⟩, hcap, _, -, rfl⟩ := h
  exact ⟨hcap, rfl⟩

/-- The checks of a funding, its two charges, and the state it leaves. -/
theorem fundLoan_charged {creditline merchant : Address} {amount : Int}
    (h : fundLoan d active env creditline merchant amount s = .ok s') :
    env.auths creditline = true ∧ s.pool.creditline = some creditline ∧ 0 < amount ∧
      amount ≤ s.pool.totalLiquidity - s.pool.lockedLiquidity ∧
      amount ≤ s.token.balance d.pool ∧ s.pool.reentrancyLocked = false ∧
      ∃ p₁ p₂, chargeOutflowWindow env (s.pool.totalLiquidity - s.pool.lockedLiquidity) amount
          { s.pool with reentrancyLocked := true } = .ok p₁ ∧
        chargeMerchantExposure merchant amount p₁ = .ok p₂ ∧
        s' = ⟨exitNonReentrant { p₂ with lockedLiquidity := p₂.lockedLiquidity + amount },
          s.token.move d.pool merchant amount⟩ := by
  simp only [fundLoan, bind_ok, pure_ok, requireAuth_ok, ensure_ok, exists_const,
    requireNotPaused, requireCreditline, enterNonReentrant_ok, addI128_ok, subI128_ok,
    Token.transferAt_ok] at h
  obtain ⟨hauth, -, hcl, hpos, _, -, _, ⟨hlock, rfl⟩, _, ⟨-, rfl⟩, havail, p₁, h₁, p₂, h₂, _,
    ⟨-, rfl⟩, token, -, ledger, ⟨-, -, -, hbal, rfl⟩, rfl⟩ := h
  exact ⟨hauth, hcl, hpos, havail, hbal, hlock, p₁, p₂, h₁, h₂, rfl⟩

theorem fundLoan_spec {creditline merchant : Address} {amount : Int}
    (h : fundLoan d active env creditline merchant amount s = .ok s') :
    env.auths creditline = true ∧ s.pool.creditline = some creditline ∧ 0 < amount ∧
      amount ≤ s.pool.totalLiquidity - s.pool.lockedLiquidity ∧
      amount ≤ s.token.balance d.pool ∧
      ∃ seq used funded, s' = {
        pool := { s.pool with
          lockedLiquidity := s.pool.lockedLiquidity + amount
          outflowSeq := seq
          outflowUsed := used
          merchantFunded := funded }
        token := s.token.move d.pool merchant amount } := by
  obtain ⟨hauth, hcl, hpos, havail, hbal, hlock, p₁, p₂, h₁, h₂, rfl⟩ := fundLoan_charged h
  obtain ⟨-, rfl⟩ := chargeMerchantExposure_spec h₂
  refine ⟨hauth, hcl, hpos, havail, hbal, p₁.outflowSeq, p₁.outflowUsed,
    Function.update p₁.merchantFunded merchant (p₁.merchantFunded merchant + amount), ?_⟩
  rcases chargeOutflowWindow_spec (by omega) h₁ with ⟨-, rfl⟩ | ⟨-, -, rfl⟩
  · simp only [exitNonReentrant, hlock]
  · simp only [exitNonReentrant, hlock]

/-- What a funding does to the window and to the merchant's exposure. -/
theorem fundLoan_caps {creditline merchant : Address} {amount : Int}
    (h : fundLoan d active env creditline merchant amount s = .ok s') :
    ((s.pool.outflowCapBps = 0 ∧ s'.pool.outflowSeq = s.pool.outflowSeq ∧
        s'.pool.outflowUsed = s.pool.outflowUsed) ∨
      (0 < s.pool.outflowCapBps ∧
        windowUsed env.sequence s.pool + amount
          ≤ (s.pool.totalLiquidity - s.pool.lockedLiquidity) * s.pool.outflowCapBps / totalBps ∧
        s'.pool.outflowSeq = env.sequence ∧
        s'.pool.outflowUsed = windowUsed env.sequence s.pool + amount)) ∧
    (0 < s.pool.merchantExposureCap →
      s.pool.merchantFunded merchant + amount ≤ s.pool.merchantExposureCap) ∧
    s'.pool.merchantFunded =
      Function.update s.pool.merchantFunded merchant (s.pool.merchantFunded merchant + amount) := by
  obtain ⟨-, -, hpos, havail, -, -, p₁, p₂, h₁, h₂, rfl⟩ := fundLoan_charged h
  obtain ⟨hcap, rfl⟩ := chargeMerchantExposure_spec h₂
  rcases chargeOutflowWindow_spec (by omega) h₁ with ⟨hzero, rfl⟩ | ⟨hbps, hle, rfl⟩
  · exact ⟨.inl ⟨hzero, rfl, rfl⟩, hcap, rfl⟩
  · exact ⟨.inr ⟨hbps, hle, rfl, rfl⟩, hcap, rfl⟩

/-! ## Interest -/

def lpShare (interest : Int) : Int := (interest * lpFeeBps).tdiv totalBps

def protocolShare (interest : Int) : Int := (interest * protocolFeeBps).tdiv totalBps

def merchantShare (interest : Int) : Int := interest - lpShare interest - protocolShare interest

theorem lpShare_eq {interest : Int} (h : 0 < interest) :
    lpShare interest = interest * 8500 / 10000 :=
  Int.tdiv_eq_ediv_of_nonneg (show 0 ≤ interest * 8500 by omega)

theorem protocolShare_eq {interest : Int} (h : 0 < interest) :
    protocolShare interest = interest * 1000 / 10000 :=
  Int.tdiv_eq_ediv_of_nonneg (show 0 ≤ interest * 1000 by omega)

/-- Rounding the two floored shares down leaves the merchant fund the rest, so
no share is negative. -/
theorem shares_nonneg {interest : Int} (h : 0 < interest) :
    0 ≤ lpShare interest ∧ 0 ≤ protocolShare interest ∧ 0 ≤ merchantShare interest := by
  unfold merchantShare
  rw [lpShare_eq h, protocolShare_eq h]
  omega

theorem lpShare_le {interest : Int} (h : 0 ≤ interest) :
    0 ≤ lpShare interest ∧ lpShare interest ≤ interest := by
  rcases Int.lt_or_eq_of_le h with hpos | rfl
  · rw [lpShare_eq hpos]
    omega
  · decide

theorem shares_sum (interest : Int) :
    lpShare interest + protocolShare interest + merchantShare interest = interest := by
  unfold merchantShare
  omega

/-- The ledger after a fee share was paid out, or left in the pool. -/
def feePaid (d : Deployment) (recipient : Option Address) (amount : Int) (t : Token) : Token :=
  match recipient with
  | some r => if 0 < amount then t.move d.pool r amount else t
  | none => t

theorem payFee_spec {token : Address} {recipient : Option Address} {amount : Int} {t t' : Token}
    (h : payFee d env token recipient amount t = .ok t') :
    t' = feePaid d recipient amount t := by
  cases recipient with
  | none =>
    cases h
    rfl
  | some r =>
    by_cases hpos : 0 < amount
    · simp only [payFee, hpos, if_true] at h
      obtain ⟨-, -, -, -, rfl⟩ := Token.transferAt_ok.mp h
      simp only [feePaid, hpos, if_true]
    · simp only [payFee, hpos, if_false, Except.ok.injEq] at h
      simp only [feePaid, hpos, if_false, h]

theorem payFee_succeeds {recipient : Option Address} {amount : Int} {t : Token}
    (h : 0 ≤ amount) (hle : amount ≤ t.balance d.pool) :
    payFee d env d.token recipient amount t = .ok (feePaid d recipient amount t) := by
  cases recipient with
  | none => rfl
  | some r =>
    simp only [payFee, feePaid]
    split
    · exact Token.transferAt_ok.mpr ⟨rfl, .inl rfl, h, hle, rfl⟩
    · rfl

/-- A fee share leaves the pool, comes back when the pool is its own recipient,
and otherwise touches the recipient only. -/
theorem feePaid_balance (d : Deployment) (recipient : Option Address) {amount : Int} (t : Token)
    (h : 0 ≤ amount) (a : Address) :
    (feePaid d recipient amount t).balance a =
      t.balance a - (if a = d.pool ∧ recipient.isSome then amount else 0)
        + (if recipient = some a then amount else 0) := by
  cases recipient with
  | none => simp [feePaid]
  | some r =>
    simp only [feePaid, Option.isSome_some, and_true, Option.some.injEq]
    split
    · rw [Token.move_balance]
      by_cases hr : r = a
      · subst hr
        simp
      · have : ¬a = r := fun e => hr e.symm
        simp [hr, this]
    · have : amount = 0 := by omega
      subst this
      simp

theorem distributeInterestInternal_spec {interest : Int}
    (h : distributeInterestInternal d env interest s = .ok s') :
    0 < interest ∧ I128.Fits (s.pool.totalLiquidity + lpShare interest) ∧ s' = {
      pool := { s.pool with totalLiquidity := s.pool.totalLiquidity + lpShare interest }
      token := feePaid d s.pool.merchantFund (merchantShare interest)
        (feePaid d s.pool.treasury (protocolShare interest) s.token) } := by
  simp only [distributeInterestInternal, bind_ok, pure_ok, ensure_ok, exists_const,
    addI128_ok, subI128_ok, mulI128_ok, divI128_ok] at h
  obtain ⟨hpos, _, ⟨-, rfl⟩, _, ⟨-, -, rfl⟩, _, ⟨-, rfl⟩, _, ⟨-, -, rfl⟩, _, ⟨-, rfl⟩, _,
    ⟨-, rfl⟩, token, -, t₁, h₁, t₂, h₂, _, ⟨hfit, rfl⟩, rfl⟩ := h
  have e₁ := payFee_spec h₁
  subst e₁
  have e₂ := payFee_spec h₂
  subst e₂
  exact ⟨hpos, hfit, rfl⟩

/-- Interest that fits is always split: the pool holds what it pays out. -/
theorem distributeInterestInternal_succeeds {interest : Int} (hpos : 0 < interest)
    (hmul : I128.Fits (interest * lpFeeBps))
    (hfit : I128.Fits (s.pool.totalLiquidity + lpShare interest))
    (htoken : s.pool.token = some d.token) (hbal : interest ≤ s.token.balance d.pool) :
    ∃ s', distributeInterestInternal d env interest s = .ok s' := by
  obtain ⟨hl, hq, hm⟩ := shares_nonneg hpos
  have hsum := shares_sum interest
  have fits : ∀ x : Int, 0 ≤ x → x ≤ interest * 1000 → I128.Fits x :=
    fun x h0 hle => I128.fits_of_le hmul h0 (show x ≤ interest * 8500 by omega)
  have hpaid : merchantShare interest ≤
      (feePaid d s.pool.treasury (protocolShare interest) s.token).balance d.pool := by
    rw [feePaid_balance d _ _ hq]
    split_ifs <;> omega
  simp only [distributeInterestInternal, bind_ok, pure_ok, ensure_ok, exists_const,
    addI128_ok, subI128_ok, mulI128_ok, divI128_ok, getToken, demand_ok]
  have hcover : protocolShare interest ≤ s.token.balance d.pool := by omega
  have hlp : I128.Fits (lpShare interest) := fits _ hl (by omega)
  have hscaled : I128.Fits (interest * protocolFeeBps) :=
    fits _ (show 0 ≤ interest * 1000 by omega) (Int.le_refl _)
  have hprotocol : I128.Fits (protocolShare interest) := fits _ hq (by omega)
  have hafter : I128.Fits (interest - lpShare interest) := fits _ (by omega) (by omega)
  have hmerchant : I128.Fits (merchantShare interest) := fits _ hm (by omega)
  exact ⟨_, hpos, _, ⟨hmul, rfl⟩, _, ⟨by decide, hlp, rfl⟩, _, ⟨hscaled, rfl⟩, _,
    ⟨by decide, hprotocol, rfl⟩, _, ⟨hafter, rfl⟩, _, ⟨hmerchant, rfl⟩, _, htoken, _,
    payFee_succeeds hq hcover, _, payFee_succeeds hm hpaid, _, ⟨hfit, rfl⟩, rfl⟩

/-! ## Repayments, guarantees, losses -/

/-- The pool's storage after a repayment. -/
def repaid (principal interest : Int) (p : Storage) : Storage :=
  { p with
    lockedLiquidity := max 0 (p.lockedLiquidity - principal)
    totalLiquidity := p.totalLiquidity + if 0 < interest then lpShare interest else 0 }

/-- The ledger after a repayment reached the pool and its interest was split. -/
def repaidLedger (d : Deployment) (p : Storage) (creditline : Address) (principal interest : Int)
    (t : Token) : Token :=
  let received := t.move creditline d.pool (principal + interest)
  if 0 < interest then
    feePaid d p.merchantFund (merchantShare interest)
      (feePaid d p.treasury (protocolShare interest) received)
  else received

theorem receiveRepayment_spec {creditline : Address} {principal interest : Int}
    (h : receiveRepayment d env creditline principal interest s = .ok s') :
    env.auths creditline = true ∧ s.pool.creditline = some creditline ∧
      0 ≤ principal ∧ 0 ≤ interest ∧ principal + interest ≤ s.token.balance creditline ∧
      (0 < interest → I128.Fits (s.pool.totalLiquidity + lpShare interest)) ∧
      s' = ⟨repaid principal interest s.pool,
        repaidLedger d s.pool creditline principal interest s.token⟩ := by
  simp only [receiveRepayment, bind_ok, pure_ok, requireAuth_ok, ensure_ok, exists_const,
    requireCreditline, enterNonReentrant_ok, addI128_ok, subI128_ok, Token.transferAt_ok] at h
  obtain ⟨hauth, hcl, ⟨hq, hj⟩, _, ⟨-, rfl⟩, -, _, ⟨hlock, rfl⟩, _, ⟨-, rfl⟩, token, -, ledger,
    ⟨-, -, -, hbal, rfl⟩, s₁, h₁, rfl⟩ := h
  by_cases hpos : 0 < interest
  · simp only [hpos, if_true] at h₁
    obtain ⟨-, hfit, rfl⟩ := distributeInterestInternal_spec h₁
    refine ⟨hauth, hcl, hq, hj, hbal, fun _ => hfit, ?_⟩
    simp only [exitNonReentrant, repaid, repaidLedger, hpos, if_true, hlock]
  · simp only [hpos, if_false, Except.ok.injEq] at h₁
    subst h₁
    refine ⟨hauth, hcl, hq, hj, hbal, fun h => absurd h hpos, ?_⟩
    simp only [exitNonReentrant, repaid, repaidLedger, hpos, if_false, Int.add_zero, hlock]

/-- A repayment of the registered credit line goes through, whether or not the
pool is paused. -/
theorem receiveRepayment_succeeds {creditline : Address} {principal interest : Int}
    (hauth : env.auths creditline = true) (hcl : s.pool.creditline = some creditline)
    (hlock : s.pool.reentrancyLocked = false) (htoken : s.pool.token = some d.token)
    (hcover : env.Covers d.pool ⟨d.token, creditline, d.pool, principal + interest⟩)
    (hq : 0 ≤ principal) (hj : 0 ≤ interest) (hpos : 0 < principal + interest)
    (hsum : I128.Fits (principal + interest))
    (hunlock : I128.Fits (s.pool.lockedLiquidity - principal))
    (hbal : principal + interest ≤ s.token.balance creditline)
    (hpool : 0 ≤ s.token.balance d.pool) (hne : creditline ≠ d.pool)
    (hmul : I128.Fits (interest * lpFeeBps))
    (hfit : I128.Fits (s.pool.totalLiquidity + lpShare interest)) :
    ∃ s', receiveRepayment d env creditline principal interest s = .ok s' := by
  have hreceived : interest ≤
      (s.token.move creditline d.pool (principal + interest)).balance d.pool := by
    rw [Token.move_balance, if_neg hne.symm, if_pos rfl]
    omega
  simp only [receiveRepayment, bind_ok, pure_ok, requireAuth_ok, ensure_ok, exists_const,
    requireCreditline, enterNonReentrant_ok, addI128_ok, subI128_ok, getToken, demand_ok,
    Token.transferAt_ok]
  have hsplit : ∃ s', (if 0 < interest then distributeInterestInternal d env interest
      ⟨{ s.pool with reentrancyLocked := true
                     lockedLiquidity := max 0 (s.pool.lockedLiquidity - principal) },
        s.token.move creditline d.pool (principal + interest)⟩
      else .ok ⟨{ s.pool with reentrancyLocked := true
                              lockedLiquidity := max 0 (s.pool.lockedLiquidity - principal) },
        s.token.move creditline d.pool (principal + interest)⟩) = .ok s' := by
    split
    · rename_i h
      exact distributeInterestInternal_succeeds h hmul hfit htoken hreceived
    · exact ⟨_, rfl⟩
  obtain ⟨s₁, hs₁⟩ := hsplit
  exact ⟨_, hauth, hcl, ⟨hq, hj⟩, _, ⟨hsum, rfl⟩, hpos, _, ⟨hlock, rfl⟩, _, ⟨hunlock, rfl⟩, _,
    htoken, _, ⟨rfl, hcover, Int.le_of_lt hpos, hbal, rfl⟩, s₁, hs₁, rfl⟩

/-- The pool's storage after a forfeited guarantee arrived. -/
def recovered (amount : Int) (p : Storage) : Storage :=
  { p with
    lockedLiquidity := p.lockedLiquidity - min amount p.lockedLiquidity
    totalLiquidity := p.totalLiquidity + min amount p.lockedLiquidity }

theorem receiveGuarantee_ok {creditline : Address} {amount : Int} :
    receiveGuarantee d env creditline amount s = .ok s' ↔
      env.auths creditline = true ∧ s.pool.paused = false ∧
      s.pool.creditline = some creditline ∧ 0 < amount ∧ s.pool.reentrancyLocked = false ∧
      I128.Fits (s.pool.lockedLiquidity - min amount s.pool.lockedLiquidity) ∧
      I128.Fits (s.pool.totalLiquidity + min amount s.pool.lockedLiquidity) ∧
      s.pool.token = some d.token ∧
      env.Covers d.pool ⟨d.token, creditline, d.pool, amount⟩ ∧
      amount ≤ s.token.balance creditline ∧
      s' = ⟨recovered amount s.pool, s.token.move creditline d.pool amount⟩ := by
  simp only [receiveGuarantee, bind_ok, pure_ok, requireAuth_ok, ensure_ok, exists_const,
    requireNotPaused, requireCreditline, enterNonReentrant_ok, addI128_ok, subI128_ok, getToken,
    demand_ok, Token.transferAt_ok]
  constructor
  · rintro ⟨hauth, hpause, hcl, hpos, _, ⟨hlock, rfl⟩, _, ⟨hl, rfl⟩, _, ⟨ht, rfl⟩, token,
      htoken, ledger, ⟨rfl, hcover, -, hbal, rfl⟩, rfl⟩
    refine ⟨hauth, hpause, hcl, hpos, hlock, hl, ht, htoken, hcover, hbal, ?_⟩
    simp only [exitNonReentrant, recovered, hlock]
  · rintro ⟨hauth, hpause, hcl, hpos, hlock, hl, ht, htoken, hcover, hbal, rfl⟩
    refine ⟨hauth, hpause, hcl, hpos, _, ⟨hlock, rfl⟩, _, ⟨hl, rfl⟩, _, ⟨ht, rfl⟩, _,
      htoken, _, ⟨rfl, hcover, Int.le_of_lt hpos, hbal, rfl⟩, ?_⟩
    simp only [exitNonReentrant, recovered, hlock]

/-- The pool's storage after a loss was written off. -/
def absorbed (shortfall : Int) (p : Storage) : Storage :=
  { p with
    lockedLiquidity := p.lockedLiquidity - min shortfall p.lockedLiquidity
    totalLiquidity := p.totalLiquidity - min shortfall p.totalLiquidity }

theorem absorbLoss_ok {creditline : Address} {shortfall : Int} :
    absorbLoss env creditline shortfall s = .ok s' ↔
      env.auths creditline = true ∧ s.pool.paused = false ∧
      s.pool.creditline = some creditline ∧ 0 < shortfall ∧ s.pool.reentrancyLocked = false ∧
      I128.Fits (s.pool.lockedLiquidity - min shortfall s.pool.lockedLiquidity) ∧
      I128.Fits (s.pool.totalLiquidity - min shortfall s.pool.totalLiquidity) ∧
      s' = ⟨absorbed shortfall s.pool, s.token⟩ := by
  simp only [absorbLoss, bind_ok, pure_ok, requireAuth_ok, ensure_ok, exists_const,
    requireNotPaused, requireCreditline, enterNonReentrant_ok, subI128_ok]
  constructor
  · rintro ⟨hauth, hpause, hcl, hpos, _, ⟨hlock, rfl⟩, _, ⟨hl, rfl⟩, _, ⟨ht, rfl⟩, rfl⟩
    refine ⟨hauth, hpause, hcl, hpos, hlock, hl, ht, ?_⟩
    simp only [exitNonReentrant, absorbed, hlock]
  · rintro ⟨hauth, hpause, hcl, hpos, hlock, hl, ht, rfl⟩
    refine ⟨hauth, hpause, hcl, hpos, _, ⟨hlock, rfl⟩, _, ⟨hl, rfl⟩, _, ⟨ht, rfl⟩, ?_⟩
    simp only [exitNonReentrant, absorbed, hlock]

theorem distributeInterest_spec {creditline : Address} {interest : Int}
    (h : distributeInterest d env creditline interest s = .ok s') :
    env.auths creditline = true ∧ s.pool.creditline = some creditline ∧ 0 < interest ∧
      interest ≤ s.token.balance creditline ∧
      I128.Fits (s.pool.totalLiquidity + lpShare interest) ∧
      s' = ⟨{ s.pool with totalLiquidity := s.pool.totalLiquidity + lpShare interest },
        repaidLedger d s.pool creditline 0 interest s.token⟩ := by
  simp only [distributeInterest, bind_ok, pure_ok, requireAuth_ok, ensure_ok, exists_const,
    requireNotPaused, requireCreditline, enterNonReentrant_ok, Token.transferAt_ok] at h
  obtain ⟨hauth, -, hcl, _, ⟨hlock, rfl⟩, token, -, ledger, ⟨-, -, -, hbal, rfl⟩, s₁, h₁, rfl⟩ := h
  obtain ⟨hpos, hfit, rfl⟩ := distributeInterestInternal_spec h₁
  refine ⟨hauth, hcl, hpos, hbal, hfit, ?_⟩
  simp only [exitNonReentrant, repaidLedger, hpos, if_true, hlock, Int.zero_add]

/-! ## Administration -/

/-- A call on the storage alone that succeeded kept the ledger. -/
theorem lift_spec {r : Except Failure Storage} (h : s.lift r = .ok s') :
    r = .ok s'.pool ∧ s'.token = s.token := by
  obtain ⟨p, rfl, rfl⟩ := map_ok.mp h
  exact ⟨rfl, rfl⟩

theorem adminSet_spec {admin : Address} {write : Storage → Storage}
    (h : adminSet env admin write p = .ok p') :
    env.auths admin = true ∧ p.admin = some admin ∧ p' = write p := by
  simp only [adminSet, requireAdmin, getAdmin, bind_ok, pure_ok, requireAuth_ok, ensure_ok,
    demand_ok, exists_const] at h
  obtain ⟨hauth, ⟨_, hadmin, rfl⟩, rfl⟩ := h
  exact ⟨hauth, hadmin, rfl⟩

theorem setOutflowCapBps_spec {admin : Address} {bps : Nat}
    (h : setOutflowCapBps env admin bps p = .ok p') : p' = { p with outflowCapBps := bps } := by
  simp only [setOutflowCapBps, bind_ok, pure_ok, ensure_ok, exists_const] at h
  obtain ⟨_, -, _, -, -, rfl⟩ := h
  rfl

theorem setMerchantExposureCap_spec {admin : Address} {amount : Int}
    (h : setMerchantExposureCap env admin amount p = .ok p') :
    0 ≤ amount ∧ p' = { p with merchantExposureCap := amount } := by
  simp only [setMerchantExposureCap, bind_ok, pure_ok, ensure_ok, exists_const] at h
  obtain ⟨_, -, _, -, hamount, rfl⟩ := h
  exact ⟨hamount, rfl⟩

theorem setAdmin_spec {newAdmin : Address} (h : setAdmin env newAdmin p = .ok p') :
    p' = { p with admin := some newAdmin } := by
  simp only [setAdmin, bind_ok, pure_ok] at h
  obtain ⟨_, -, _, -, rfl⟩ := h
  rfl

theorem initializeContract_spec {admin token treasury merchantFund : Address}
    {registry : Option Address}
    (h : initializeContract env admin token treasury merchantFund registry p = .ok p') :
    p.admin = none ∧ p' = { p with
      admin := some admin
      token := some token
      treasury := some treasury
      merchantFund := some merchantFund
      vendorRegistry := registry } := by
  simp only [initializeContract, bind_ok, pure_ok, ensure_ok, exists_const] at h
  obtain ⟨hadmin, _, -, rfl⟩ := h
  exact ⟨hadmin, rfl⟩

theorem setParametersContract_spec {address : Address}
    (h : setParametersContract env address p = .ok p') :
    p' = { p with parametersContract := some address } := by
  simp only [setParametersContract, bind_ok, pure_ok] at h
  obtain ⟨_, -, _, -, rfl⟩ := h
  rfl

/-- A proposal fills the upgrade slot and writes nothing else. -/
theorem proposeUpgrade_spec {getParameters : Address → Reply ProtocolParameters}
    {newWasmHash : WasmHash} (h : proposeUpgrade getParameters env newWasmHash p = .ok p') :
    ∃ pending, p' = { p with pendingUpgrade := some pending } := by
  simp only [proposeUpgrade, bind_ok, pure_ok] at h
  obtain ⟨_, -, _, -, _, -, pending, -, rfl⟩ := h
  exact ⟨pending, rfl⟩

theorem executeUpgrade_spec {newWasmHash : WasmHash}
    (h : executeUpgrade env newWasmHash p = .ok p') :
    ∃ version, p' = { p with version := version, pendingUpgrade := none } := by
  simp only [executeUpgrade, bind_ok, pure_ok] at h
  obtain ⟨_, -, _, -, version, -, _, -, rfl⟩ := h
  exact ⟨version, rfl⟩

end StepFi.LiquidityPool

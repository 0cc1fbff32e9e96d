import StepFi.LiquidityPool.Accounts

/-!
# What a pool call keeps beside the accounts

The addresses the pool works with (`Config`), the token ledger's solvency and
the range of the liquidity counter: `State.Sound`. A pool whose credit line is
registered has been initialized, so its fee recipients are configured.
-/

namespace StepFi.LiquidityPool

open Lib

variable {d : Deployment} {active : Address → Option Bool} {env : Env} {call : Call}
variable {p p' : Storage} {s s' : State}

/-! ## Configuration -/

structure Config where
  admin : Option Address
  token : Option Address
  creditline : Option Address
  treasury : Option Address
  merchantFund : Option Address

def Storage.config (p : Storage) : Config where
  admin := p.admin
  token := p.token
  creditline := p.creditline
  treasury := p.treasury
  merchantFund := p.merchantFund

/-- The calls that name another contract name the deployed one. -/
def Call.Points (d : Deployment) : Call → Prop
  | .initializeContract _ token .. => token = d.token
  | .setCreditline _ creditline => creditline = d.creditLine
  | _ => True

instance (d : Deployment) (call : Call) : Decidable (call.Points d) := by
  unfold Call.Points
  split <;> infer_instance

structure Config.Sound (d : Deployment) (g : Config) : Prop where
  token : ∀ a, g.token = some a → a = d.token
  creditline : ∀ a, g.creditline = some a → a = d.creditLine
  initialized : g.creditline.isSome → g.admin.isSome
  recipients : g.admin.isSome → g.treasury.isSome ∧ g.merchantFund.isSome

theorem Config.Sound.recipients_some {g : Config} {a : Address} (hs : g.Sound d)
    (h : g.creditline = some a) :
    ∃ treasury fund, g.treasury = some treasury ∧ g.merchantFund = some fund := by
  obtain ⟨ht, hf⟩ := hs.recipients (hs.initialized (by simp [h]))
  obtain ⟨treasury, ht⟩ := Option.isSome_iff_exists.mp ht
  obtain ⟨fund, hf⟩ := Option.isSome_iff_exists.mp hf
  exact ⟨treasury, fund, ht, hf⟩

/-- A setter's write keeps the configuration sound once there is an admin. -/
theorem adminSet_config {admin : Address} {write : Storage → Storage}
    (h : adminSet env admin write p = .ok p')
    (hw : p.admin = some admin → (write p).config.Sound d) : p'.config.Sound d := by
  obtain ⟨-, hadmin, rfl⟩ := adminSet_spec h
  exact hw hadmin

/-- The calls that move liquidity read the configuration only. -/
theorem exec_money (h : exec d active env call s = .ok s') (hc : ¬call.Setter) :
    s'.pool.config = s.pool.config := by
  cases call with
  | deposit provider amount =>
    obtain ⟨⟨k, s₁⟩, h₁, rfl⟩ := map_ok.mp h
    obtain ⟨price, -, -, -, -, -, -, -, rfl⟩ := deposit_spec h₁
    rw [seedDeadShares_eq]
    rfl
  | withdraw provider amount =>
    obtain ⟨⟨r, s₁⟩, h₁, rfl⟩ := map_ok.mp h
    obtain ⟨price, -, -, -, -, -, -, -, -, rfl⟩ := withdraw_spec h₁
    rfl
  | fundLoan =>
    obtain ⟨-, -, -, -, -, _, _, _, rfl⟩ := fundLoan_spec h
    rfl
  | receiveRepayment =>
    obtain ⟨-, -, -, -, -, -, rfl⟩ := receiveRepayment_spec h
    rfl
  | receiveGuarantee =>
    obtain ⟨-, -, -, -, -, -, -, -, -, -, rfl⟩ := receiveGuarantee_ok.mp h
    rfl
  | absorbLoss =>
    obtain ⟨-, -, -, -, -, -, -, rfl⟩ := absorbLoss_ok.mp h
    rfl
  | distributeInterest =>
    obtain ⟨-, -, -, -, -, rfl⟩ := distributeInterest_spec h
    rfl
  | accumulateInterest =>
    obtain ⟨-, -, -, -, -, rfl⟩ := distributeInterest_spec h
    rfl
  | _ => exact (hc trivial).elim

theorem exec_config (hs : s.pool.config.Sound d) (hp : call.Points d)
    (h : exec d active env call s = .ok s') : s'.pool.config.Sound d := by
  -- A setter's write is judged against the configuration of an initialized pool.
  have hrecipients : ∀ admin, s.pool.admin = some admin →
      s.pool.treasury.isSome ∧ s.pool.merchantFund.isSome := fun _ ha =>
    hs.recipients (show s.pool.admin.isSome by simp [ha])
  cases call with
  | initializeContract admin token treasury fund registry =>
    obtain ⟨hnone, hpool⟩ := initializeContract_spec (lift_spec h).1
    rw [hpool]
    refine ⟨fun a ha => ?_, hs.creditline, fun _ => rfl, fun _ => ⟨rfl, rfl⟩⟩
    obtain rfl := Option.some.inj ha
    exact hp
  | setCreditline admin creditline =>
    refine adminSet_config (lift_spec h).1 fun hadmin => ?_
    refine ⟨hs.token, fun a ha => ?_, fun _ => ?_, fun _ => hrecipients _ hadmin⟩
    · obtain rfl := Option.some.inj ha
      exact hp
    · show s.pool.admin.isSome
      simp [hadmin]
  | setTreasury admin treasury =>
    exact adminSet_config (lift_spec h).1 fun hadmin =>
      ⟨hs.token, hs.creditline, hs.initialized, fun _ => ⟨rfl, (hrecipients _ hadmin).2⟩⟩
  | setMerchantFund admin fund =>
    exact adminSet_config (lift_spec h).1 fun hadmin =>
      ⟨hs.token, hs.creditline, hs.initialized, fun _ => ⟨(hrecipients _ hadmin).1, rfl⟩⟩
  | setVendorRegistry => exact adminSet_config (lift_spec h).1 fun _ => hs
  | pause => exact adminSet_config (lift_spec h).1 fun _ => hs
  | unpause => exact adminSet_config (lift_spec h).1 fun _ => hs
  | setOutflowCapBps =>
    rw [setOutflowCapBps_spec (lift_spec h).1]
    exact hs
  | setMerchantExposureCap =>
    rw [(setMerchantExposureCap_spec (lift_spec h).1).2]
    exact hs
  | setAdmin newAdmin =>
    obtain ⟨_, hadmin, -⟩ := bind_ok.mp (lift_spec h).1
    rw [setAdmin_spec (lift_spec h).1]
    exact ⟨hs.token, hs.creditline, fun _ => rfl, fun _ => hrecipients _ (demand_ok.mp hadmin)⟩
  | setParametersContract =>
    rw [setParametersContract_spec (lift_spec h).1]
    exact hs
  | proposeUpgrade =>
    obtain ⟨pending, hpool⟩ := proposeUpgrade_spec (lift_spec h).1
    rw [hpool]
    exact hs
  | executeUpgrade =>
    obtain ⟨version, hpool⟩ := executeUpgrade_spec (lift_spec h).1
    rw [hpool]
    exact hs
  | upgrade =>
    obtain ⟨version, hpool⟩ := executeUpgrade_spec (lift_spec h).1
    rw [hpool]
    exact hs
  | _ =>
    rw [exec_money h id]
    exact hs

/-! ## The credit line's calls -/

/-- The calls that only the registered credit line makes. -/
def Call.OfCreditline : Call → Prop
  | .fundLoan .. => True
  | .receiveRepayment .. => True
  | .receiveGuarantee .. => True
  | .absorbLoss .. => True
  | .distributeInterest .. => True
  | .accumulateInterest .. => True
  | _ => False

theorem exec_creditline (h : exec d active env call s = .ok s') (hc : call.OfCreditline) :
    ∃ a, env.auths a = true ∧ s.pool.creditline = some a := by
  cases call with
  | fundLoan creditline =>
    obtain ⟨ha, hcl, -⟩ := fundLoan_spec h
    exact ⟨creditline, ha, hcl⟩
  | receiveRepayment creditline =>
    obtain ⟨ha, hcl, -⟩ := receiveRepayment_spec h
    exact ⟨creditline, ha, hcl⟩
  | receiveGuarantee creditline =>
    obtain ⟨ha, -, hcl, -⟩ := receiveGuarantee_ok.mp h
    exact ⟨creditline, ha, hcl⟩
  | absorbLoss creditline =>
    obtain ⟨ha, -, hcl, -⟩ := absorbLoss_ok.mp h
    exact ⟨creditline, ha, hcl⟩
  | distributeInterest creditline =>
    obtain ⟨ha, hcl, -⟩ := distributeInterest_spec h
    exact ⟨creditline, ha, hcl⟩
  | accumulateInterest creditline =>
    obtain ⟨ha, hcl, -⟩ := distributeInterest_spec h
    exact ⟨creditline, ha, hcl⟩
  | _ => exact hc.elim

/-! ## The ledger and the liquidity counter -/

/-- No call in progress, the counter an `i128`, no account overdrawn. -/
structure State.Safe (s : State) : Prop where
  unlocked : s.pool.reentrancyLocked = false
  fits : I128.Fits s.pool.totalLiquidity
  solvent : s.token.Solvent

/-- A fee share the pool can pay leaves no account overdrawn. -/
theorem feePaid_solvent {recipient : Option Address} {amount : Int} {t : Token} (ht : t.Solvent)
    (hle : amount ≤ t.balance d.pool) : (feePaid d recipient amount t).Solvent := by
  unfold feePaid
  split
  · split
    · exact ht.move (by omega) hle
    · exact ht
  · exact ht

theorem feePaid_pool (d : Deployment) (recipient : Option Address) {amount : Int} (t : Token)
    (h : 0 ≤ amount) :
    t.balance d.pool - amount ≤ (feePaid d recipient amount t).balance d.pool := by
  rw [feePaid_balance d recipient t h]
  split <;> split <;> omega

theorem repaidLedger_solvent {creditline : Address} {principal interest : Int} {t : Token}
    (ht : t.Solvent) (hq : 0 ≤ principal) (hj : 0 ≤ interest)
    (hbal : principal + interest ≤ t.balance creditline) (hne : creditline ≠ d.pool) :
    (repaidLedger d p creditline principal interest t).Solvent := by
  have hreceived : (t.move creditline d.pool (principal + interest)).Solvent :=
    ht.move (by omega) hbal
  have hpool := ht d.pool
  have hmoved : (t.move creditline d.pool (principal + interest)).balance d.pool
      = t.balance d.pool + (principal + interest) := by
    rw [Token.move_balance, if_neg hne.symm, if_pos rfl]
    omega
  simp only [repaidLedger]
  split
  · rename_i hpos
    obtain ⟨hl, hp, hm⟩ := shares_nonneg hpos
    have hsum := shares_sum interest
    have hpaid := feePaid_pool d p.treasury (t.move creditline d.pool (principal + interest)) hp
    exact feePaid_solvent (feePaid_solvent hreceived (by omega)) (by omega)
  · exact hreceived

/-- The liquidity counter stays an `i128`, whoever calls. -/
theorem exec_fits (ha : s.pool.accounts.Sound) (hf : I128.Fits s.pool.totalLiquidity)
    (h : exec d active env call s = .ok s') : I128.Fits s'.pool.totalLiquidity := by
  have hlocked : 0 ≤ s.pool.lockedLiquidity := ha.locked_nonneg
  cases call with
  | deposit provider amount =>
    obtain ⟨⟨k, s₁⟩, h₁, rfl⟩ := map_ok.mp h
    obtain ⟨price, -, -, -, -, -, hfit, -, rfl⟩ := deposit_spec h₁
    rw [seedDeadShares_eq]
    exact hfit
  | withdraw provider shares =>
    obtain ⟨⟨r, s₁⟩, h₁, rfl⟩ := map_ok.mp h
    obtain ⟨price, -, -, -, -, -, havail, h0, -, rfl⟩ := withdraw_spec h₁
    exact I128.fits_of_le hf (by dsimp only; omega) (by dsimp only; omega)
  | fundLoan creditline merchant amount =>
    obtain ⟨-, -, -, -, -, _, _, _, rfl⟩ := fundLoan_spec h
    exact hf
  | receiveRepayment creditline principal interest =>
    obtain ⟨-, -, -, -, -, hfit, rfl⟩ := receiveRepayment_spec h
    simp only [repaid]
    split
    · rename_i hpos
      exact hfit hpos
    · simpa only [Int.add_zero] using hf
  | receiveGuarantee creditline amount =>
    obtain ⟨-, -, -, -, -, -, hfit, -, -, -, rfl⟩ := receiveGuarantee_ok.mp h
    exact hfit
  | absorbLoss creditline shortfall =>
    obtain ⟨-, -, -, -, -, -, hfit, rfl⟩ := absorbLoss_ok.mp h
    exact hfit
  | distributeInterest creditline interest =>
    obtain ⟨-, -, -, -, hfit, rfl⟩ := distributeInterest_spec h
    exact hfit
  | accumulateInterest creditline interest =>
    obtain ⟨-, -, -, -, hfit, rfl⟩ := distributeInterest_spec h
    exact hfit
  | _ =>
    have htotal : s'.pool.totalLiquidity = s.pool.totalLiquidity :=
      congrArg Accounts.total (exec_setter h trivial).2.accounts
    exact htotal ▸ hf

theorem exec_safe (hs : s.Safe) (ha : s.pool.accounts.Sound) (hg : s.pool.config.Sound d)
    (h : exec d active env call s = .ok s') : s'.Safe := by
  have hfits := exec_fits ha hs.fits h
  -- The payer of a repayment is not the pool itself.
  have hne : ∀ a, s.pool.creditline = some a → a ≠ d.pool := by
    intro a h
    rw [hg.creditline a h]
    exact d.creditLine_ne_pool
  cases call with
  | deposit provider amount =>
    obtain ⟨⟨k, s₁⟩, h₁, rfl⟩ := map_ok.mp h
    obtain ⟨price, -, -, hmin, -, -, -, hbal, rfl⟩ := deposit_spec h₁
    simp only [minAmount] at hmin
    rw [seedDeadShares_eq] at hfits ⊢
    exact ⟨hs.unlocked, hfits, hs.solvent.move (by omega) hbal⟩
  | withdraw provider shares =>
    obtain ⟨⟨r, s₁⟩, h₁, rfl⟩ := map_ok.mp h
    obtain ⟨price, -, -, -, -, -, -, h0, hbal, rfl⟩ := withdraw_spec h₁
    exact ⟨hs.unlocked, hfits, hs.solvent.move h0 hbal⟩
  | fundLoan creditline merchant amount =>
    obtain ⟨-, -, hpos, -, hbal, _, _, _, rfl⟩ := fundLoan_spec h
    exact ⟨hs.unlocked, hfits, hs.solvent.move (by omega) hbal⟩
  | receiveRepayment creditline principal interest =>
    obtain ⟨-, hcl, hq, hj, hbal, -, rfl⟩ := receiveRepayment_spec h
    exact ⟨hs.unlocked, hfits, repaidLedger_solvent hs.solvent hq hj hbal (hne _ hcl)⟩
  | receiveGuarantee creditline amount =>
    obtain ⟨-, -, -, hpos, -, -, -, -, -, hbal, rfl⟩ := receiveGuarantee_ok.mp h
    exact ⟨hs.unlocked, hfits, hs.solvent.move (by omega) hbal⟩
  | absorbLoss creditline shortfall =>
    obtain ⟨-, -, -, -, -, -, -, rfl⟩ := absorbLoss_ok.mp h
    exact ⟨hs.unlocked, hfits, hs.solvent⟩
  | distributeInterest creditline interest =>
    obtain ⟨-, hcl, hpos, hbal, -, rfl⟩ := distributeInterest_spec h
    exact ⟨hs.unlocked, hfits,
      repaidLedger_solvent hs.solvent (Int.le_refl 0) (by omega) (by omega) (hne _ hcl)⟩
  | accumulateInterest creditline interest =>
    obtain ⟨-, hcl, hpos, hbal, -, rfl⟩ := distributeInterest_spec h
    exact ⟨hs.unlocked, hfits,
      repaidLedger_solvent hs.solvent (Int.le_refl 0) (by omega) (by omega) (hne _ hcl)⟩
  | _ =>
    obtain ⟨htoken, hpool⟩ := exec_setter h trivial
    exact ⟨hpool.lock.trans hs.unlocked, hfits, htoken ▸ hs.solvent⟩

/-- What every call on the pool keeps. -/
structure State.Sound (d : Deployment) (s : State) : Prop where
  accounts : s.pool.accounts.Sound
  config : s.pool.config.Sound d
  safe : s.Safe

theorem exec_sound (hs : s.Sound d) (hp : call.Points d)
    (h : exec d active env call s = .ok s') : s'.Sound d :=
  ⟨(exec_moves hs.accounts h).sound hs.accounts, exec_config hs.config hp h,
    exec_safe hs.safe hs.accounts hs.config h⟩

/-! ## Whose tokens a call moves -/

theorem feePaid_log (d : Deployment) (recipient : Option Address) (amount : Int) (t : Token) :
    ∃ new, (feePaid d recipient amount t).log = t.log ++ new ∧ ∀ x ∈ new, x.source = d.pool := by
  unfold feePaid
  split
  · split
    · exact ⟨_, rfl, by simp⟩
    · exact ⟨[], by simp, by simp⟩
  · exact ⟨[], by simp, by simp⟩

/-- A repayment is one transfer to the pool, and fees out of the pool. -/
theorem repaidLedger_log (d : Deployment) (p : Storage) (creditline : Address)
    (principal interest : Int) (t : Token) :
    ∃ fees, (repaidLedger d p creditline principal interest t).log
        = t.log ++ ⟨creditline, d.pool, principal + interest⟩ :: fees ∧
      ∀ x ∈ fees, x.source = d.pool := by
  simp only [repaidLedger]
  split
  · obtain ⟨new₁, h₁, hs₁⟩ := feePaid_log d p.treasury (protocolShare interest)
      (t.move creditline d.pool (principal + interest))
    obtain ⟨new₂, h₂, hs₂⟩ := feePaid_log d p.merchantFund (merchantShare interest)
      (feePaid d p.treasury (protocolShare interest)
        (t.move creditline d.pool (principal + interest)))
    refine ⟨new₁ ++ new₂, ?_, List.forall_mem_append.mpr ⟨hs₁, hs₂⟩⟩
    rw [h₂, h₁]
    simp
  · exact ⟨[], rfl, by simp⟩

/-- A call moves tokens of the pool and of those who authorised it. -/
theorem exec_log (h : exec d active env call s = .ok s') :
    ∃ new, s'.token.log = s.token.log ++ new ∧
      ∀ x ∈ new, x.source = d.pool ∨ env.auths x.source = true := by
  have repayment : ∀ (q : Storage) (creditline : Address) (principal interest : Int),
      env.auths creditline = true →
      ∃ new, (repaidLedger d q creditline principal interest s.token).log = s.token.log ++ new ∧
        ∀ x ∈ new, x.source = d.pool ∨ env.auths x.source = true := by
    intro q creditline principal interest hauth
    obtain ⟨fees, hlog, hfees⟩ := repaidLedger_log d q creditline principal interest s.token
    exact ⟨_, hlog, List.forall_mem_cons.mpr ⟨.inr hauth, fun x hx => .inl (hfees x hx)⟩⟩
  cases call with
  | deposit provider amount =>
    obtain ⟨⟨k, s₁⟩, h₁, rfl⟩ := map_ok.mp h
    obtain ⟨price, -, hauth, -, -, -, -, -, rfl⟩ := deposit_spec h₁
    exact ⟨_, rfl, by simp [hauth]⟩
  | withdraw provider shares =>
    obtain ⟨⟨r, s₁⟩, h₁, rfl⟩ := map_ok.mp h
    obtain ⟨price, -, -, -, -, -, -, -, -, rfl⟩ := withdraw_spec h₁
    exact ⟨_, rfl, by simp⟩
  | fundLoan =>
    obtain ⟨-, -, -, -, -, _, _, _, rfl⟩ := fundLoan_spec h
    exact ⟨_, rfl, by simp⟩
  | receiveRepayment creditline principal interest =>
    obtain ⟨hauth, -, -, -, -, -, rfl⟩ := receiveRepayment_spec h
    exact repayment _ _ _ _ hauth
  | receiveGuarantee =>
    obtain ⟨hauth, -, -, -, -, -, -, -, -, -, rfl⟩ := receiveGuarantee_ok.mp h
    exact ⟨_, rfl, by simp [hauth]⟩
  | absorbLoss =>
    obtain ⟨-, -, -, -, -, -, -, rfl⟩ := absorbLoss_ok.mp h
    exact ⟨[], by simp, by simp⟩
  | distributeInterest =>
    obtain ⟨hauth, -, -, -, -, rfl⟩ := distributeInterest_spec h
    exact repayment _ _ _ _ hauth
  | accumulateInterest =>
    obtain ⟨hauth, -, -, -, -, rfl⟩ := distributeInterest_spec h
    exact repayment _ _ _ _ hauth
  | _ => exact ⟨[], by simp [(exec_setter h trivial).1], by simp⟩

end StepFi.LiquidityPool

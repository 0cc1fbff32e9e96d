import StepFi.Network.Custody
import StepFi.Protocol.Origination
import StepFi.Parameters.Validity
import StepFi.VendorRegistry.Lifecycle

/-!
# The terms loans are opened on

With all six contracts at work: a new loan is checked against the registry, the
scores and the parameters as they are at that moment (`opened_on_terms_in_force`).
As governance stores valid parameters only and the registry forgets no vendor, every
loan there ever is carries a guarantee and names a registered vendor
(`loans_vetted`).
-/

namespace StepFi.Network

open Lib CreditLine

variable {n : Site} {env : Env} {s s' : State} {l : Label} {loan : Loan} {r : LoanRequest}
variable {score id : Nat}

/-! ## The parameters in force -/

/-- The stored parameters as the credit line reads them. -/
def asRead (params : Parameters.ProtocolParameters) : ProtocolParameters where
  minGuaranteePercent := params.minGuaranteePercent
  minReputationThreshold := params.minReputationThreshold
  fullRepaymentReward := params.fullRepaymentReward
  defaultPenalty := params.defaultPenalty
  largeLoanThreshold := params.largeLoanThreshold
  largeLoanDefaultPenalty := params.largeLoanDefaultPenalty
  baseInterestBps := params.baseInterestBps
  gracePeriodSeconds := params.gracePeriodSeconds
  upgradeDelaySeconds := params.upgradeDelaySeconds
  lateFeeBps := params.lateFeeBps

/-- What governance has stored, once the credit line points there, and the
defaults until then. -/
def State.inForce (s : State) : ProtocolParameters :=
  match s.line.parametersContract, s.governance.params with
  | some _, some params => asRead params
  | _, _ => defaultProtocolParameters

theorem getProtocolParameters_inForce (hs : s.line.addresses.Sound n.core) :
    getProtocolParameters (Protocol.clients n.core) s.line (s.world n) = s.inForce := by
  have hdeployed := hs.parametersContract
  simp only [Storage.addresses] at hdeployed
  unfold getProtocolParameters State.inForce
  cases hcontract : s.line.parametersContract with
  | none => rfl
  | some address =>
    obtain rfl := hdeployed address hcontract
    cases hparams : s.governance.params with
    | none =>
      simp [Protocol.clients, State.world, State.parameters, Protocol.askParameters, Reply.answer,
        Parameters.getParameters, hparams, demand, Except.toOption]
    | some params =>
      simp only [Protocol.clients, State.world, State.parameters, if_true,
        Protocol.askParameters_deployed _ hparams, Protocol.creditLine_decodes]
      rfl

theorem governance_sound (h : Reachable Deployed (Step n) s) : s.governance.Sound :=
  governance_simulated.invariant (fun _ => Parameters.sound_of_reachable) h

/-- Whatever governance has decided, a loan needs a guarantee, and no more than the
loan. -/
theorem inForce_percent (h : Reachable Deployed (Step n) s) :
    1 ≤ s.inForce.minGuaranteePercent ∧ s.inForce.minGuaranteePercent ≤ 100 := by
  unfold State.inForce
  split
  · rename_i params hcontract hparams
    have hvalid := (governance_sound h).params params hparams
    exact ⟨hvalid.guarantee_pos, hvalid.guarantee_le⟩
  · decide

/-! ## New loans -/

/-- The interest rate for a score. -/
def rateFor (params : ProtocolParameters) (score : Nat) : Nat :=
  if params.baseInterestBps = 0 then
    if 90 ≤ score then 400 else if 75 ≤ score then 600 else if 60 ≤ score then 800 else 1000
  else
    if 90 ≤ score then params.baseInterestBps - 600
    else if 75 ≤ score then params.baseInterestBps - 400
    else if 60 ≤ score then params.baseInterestBps - 200
    else params.baseInterestBps

/-- A loan opened at `env` in the state `s`, on the terms of that moment. -/
structure OnTerms (env : Env) (s : State) (loan : Loan) : Prop where
  authorised : env.auths loan.borrower = true
  vendor : VendorRegistry.isActive s.registry loan.vendor = true
  score : s.inForce.minReputationThreshold ≤ s.reputation.scores loan.borrower
  percent : 1 ≤ s.inForce.minGuaranteePercent ∧ s.inForce.minGuaranteePercent ≤ 100
  guarantee : loan.totalAmount * s.inForce.minGuaranteePercent / 100 ≤ loan.guaranteeAmount
  total : 0 < loan.guaranteeAmount ∧ loan.guaranteeAmount ≤ loan.totalAmount
  interest : loan.interestAmount
    = loan.totalAmount * rateFor s.inForce (s.reputation.scores loan.borrower) / 10000
  serviceFee : loan.serviceFeeAmount = loan.totalAmount / 100
  balance : loan.remainingBalance = loan.totalAmount + loan.interestAmount + loan.serviceFeeAmount
  limit : s.line.userActiveDebt loan.borrower + loan.remainingBalance
    ≤ creditLimit (s.reputation.scores loan.borrower)

/-- An admitted request is offered on the terms in force. -/
theorem offer_onTerms (h : Reachable Deployed (Step n) s) {status : LoanStatus} (now : Nat)
    (hadmits : Admits (Protocol.clients n.core) env r (s.protocol n) score) :
    OnTerms env s { offer (Protocol.clients n.core) env r score status s.line (s.world n) with
      fundedAt := now } := by
  have hi := invariant_of_reachable h
  have haccept := hadmits.acceptable
  have hforce := getProtocolParameters_inForce hi.addresses
  have hpercent := inForce_percent h
  obtain ⟨-, hscore, hthreshold⟩ := Protocol.validateReputation_ok.mp hadmits.rated
  obtain rfl : s.reputation.scores r.user = score := hscore
  have h0 := Int.le_of_lt haccept.total_pos
  have hfloor := haccept.floor
  rw [show (s.protocol n).line = s.line from rfl, show (s.protocol n).world = s.world n from rfl,
    hforce, Int.tdiv_eq_ediv_of_nonneg (Int.mul_nonneg h0 (by omega))] at hfloor
  have hrate : interestRateBps (Protocol.clients n.core) s.line (s.world n)
      (s.reputation.scores r.user) = rateFor s.inForce (s.reputation.scores r.user) := by
    rw [← hforce]
    rfl
  exact {
    authorised := hadmits.auth
    vendor := Option.some.inj (Protocol.validateVendor_ok haccept.vendor)
    score := by
      rw [← hforce]
      exact hthreshold
    percent := hpercent
    guarantee := hfloor
    total := ⟨haccept.guarantee_pos, haccept.guarantee_le⟩
    interest := by
      simp only [offer, hrate, bpsOf]
      exact Int.tdiv_eq_ediv_of_nonneg (Int.mul_nonneg h0 (Int.natCast_nonneg _))
    serviceFee := by
      have hfee : (r.totalAmount * 100).tdiv 10000 = r.totalAmount * 100 / 10000 :=
        Int.tdiv_eq_ediv_of_nonneg (by omega)
      show (r.totalAmount * 100).tdiv 10000 = r.totalAmount / 100
      omega
    balance := rfl
    limit := haccept.limit }

/-- The only calls that open a loan are those that admit a request. -/
theorem Step.opened (h : Reachable Deployed (Step n) s) (hs : Step n s l s')
    (hloan : s'.line.book.loan id = some loan) (hnew : s.line.book.loan id = none) :
    ∃ r score status now, Admits (Protocol.clients n.core) l.env r (s.protocol n) score ∧
      loan = { offer (Protocol.clients n.core) l.env r score status s.line (s.world n) with
        fundedAt := now } := by
  have hb := (invariant_of_reachable h).book
  have hfresh : s.line.book.loan (s.line.loanCounter + 1) = none := hb.filled.fresh
  have heffect := hs.effect
  obtain ⟨env, action⟩ := l
  cases heffect with
  | @line call t hexec =>
    obtain ⟨e, he⟩ := CreditLine.exec_effect hb hexec
    have hloan : t.line.book.loan id = some loan := hloan
    have hentry : e.record = some loan := by
      rw [he.book] at hloan
      rcases Event.loan_apply hloan with hr | hold
      · exact hr
      · rw [show s.line.book.loan id = some loan from hold] at hnew
        cases hnew
    have hkeyed := (he.valid.sound hb).keyed id loan (he.book ▸ hloan)
    -- Every other entry rewrites a record that was there.
    rcases he.valid.rewrites hentry with rfl | ⟨old, hold, -⟩
    · cases he.records with
      | @createLoan r _ hissued hactive =>
        obtain ⟨⟨id', t'⟩, hcreate, rfl⟩ := map_ok.mp hexec
        obtain ⟨score, hadmits, -, -, rfl, -, hline⟩ := (createLoan_ok hfresh).mp hcreate
        have hid : loan.loanId = s.line.loanCounter + 1 := by
          cases he.valid with
          | issue hid => exact hid
        obtain rfl : id = s.line.loanCounter + 1 := hkeyed.symm.trans hid
        rw [hline] at hloan
        exact ⟨r, score, .active, _, hadmits, Option.some.inj
          (hloan.symm.trans (Protocol.created_loan (Protocol.clients n.core) env r score _))⟩
      | @requestLoan r _ hissued hpending =>
        obtain ⟨⟨id', t'⟩, hrequest, rfl⟩ := map_ok.mp hexec
        obtain ⟨score, hadmits, rfl, -, hline⟩ := (requestLoan_ok hfresh).mp hrequest
        have hid : loan.loanId = s.line.loanCounter + 1 := by
          cases he.valid with
          | issue hid => exact hid
        obtain rfl : id = s.line.loanCounter + 1 := hkeyed.symm.trans hid
        rw [hline] at hloan
        exact ⟨r, score, .pending, 0, hadmits, Option.some.inj
          (hloan.symm.trans (Protocol.requested_loan (Protocol.clients n.core) env r score _))⟩
    · have hold : s.line.book.loan loan.loanId = some old := hold
      rw [hkeyed, hnew] at hold
      cases hold
  | _ =>
    rw [show s.line.book.loan id = some loan from hloan] at hnew
    cases hnew

/-- From every reachable state, a step that opens a loan opens it on the terms in
force at that moment: authorised by the borrower, for a vendor the registry has
approved, within the limit of the borrower's score, over the guarantee and at the rate
the stored parameters ask for. -/
theorem opened_on_terms_in_force (h : Reachable Deployed (Step n) s) (hs : Step n s l s')
    (hloan : s'.line.book.loan id = some loan) (hnew : s.line.book.loan id = none) :
    OnTerms l.env s loan := by
  obtain ⟨r, score, status, now, hadmits, rfl⟩ := hs.opened h hloan hnew
  exact offer_onTerms h now hadmits

/-- The borrower `22`, at `80` points with a vouch, takes a loan of `1000`. -/
theorem opened_on_terms_in_force_sample : ∃ (s : State) (loan : Loan),
    s.reputation.scores 22 = 80 ∧ OnTerms (Env.signedBy [22] 100) s loan := by
  have hreplay : (replay (take .sample) sampleStart (setUp ++ prepare)).toOption.map
      (fun r => (r.2.reputation.scores 22, r.2.line.book.loan 1,
        (take .sample r.2 (openLoan 22)).toOption.map fun s => (s.line.book.loan 1).isSome))
        = some (80, none, some true) := by decide +kernel
  obtain ⟨tr, s, hr, hobs⟩ := replay_observed hreplay
  simp only [Prod.mk.injEq] at hobs
  obtain ⟨hscore, hnew, hopened⟩ := hobs
  obtain ⟨s', htaken, hopened⟩ := toOption_map_some.mp hopened
  obtain ⟨loan, hloan⟩ := Option.isSome_iff_exists.mp hopened
  have hreach : Reachable Deployed (Step .sample) s :=
    (run_of_replay (by decide +kernel) hr).reachable sampleStart_deployed
  have hstep : Step .sample s (openLoan 22) s' :=
    ⟨by decide +kernel, by decide, htaken⟩
  exact ⟨s, loan, hscore, opened_on_terms_in_force hreach hstep hloan hnew⟩

/-! ## Every loan -/

/-- What every loan has, however long it has been there. -/
structure Vetted (s : State) (loan : Loan) : Prop where
  vendor : ∃ info, s.registry.vendors loan.vendor = some info
  /-- Rounded down: a loan of `150` may carry a guarantee of `1`. -/
  guarantee : loan.totalAmount / 100 ≤ loan.guaranteeAmount
  guarantee_le : 0 < loan.guaranteeAmount ∧ loan.guaranteeAmount ≤ loan.totalAmount
  total : loan.totalAmount ≤ 10000

/-- The registry forgets no vendor. -/
theorem vendors_kept {p p' : VendorRegistry.Storage} {call : VendorRegistry.Call} {vendor : Address}
    {info : VendorRegistry.VendorInfo} (h : VendorRegistry.exec env call p = .ok p')
    (hinfo : p.vendors vendor = some info) : ∃ info, p'.vendors vendor = some info := by
  have updated : ∀ (other : Address) (x : VendorRegistry.VendorInfo),
      ∃ info, Function.update p.vendors other (some x) vendor = some info := by
    intro other x
    by_cases hv : vendor = other
    · subst hv
      exact ⟨x, Function.update_self ..⟩
    · exact ⟨info, by rw [Function.update_of_ne hv, hinfo]⟩
  cases VendorRegistry.exec_effect h with
  | register hrules =>
    rw [hrules.vendors]
    exact updated _ _
  | rule hruling hrules =>
    rw [hrules.vendors]
    exact updated _ _
  | other hruling hvendors =>
    rw [hvendors]
    exact ⟨info, hinfo⟩

theorem creditLimit_le (score : Nat) : creditLimit score ≤ 10000 := by
  unfold creditLimit
  split_ifs <;> decide

theorem OnTerms.vetted (h : OnTerms env s loan) (hdebt : 0 ≤ s.line.userActiveDebt loan.borrower) :
    Vetted s loan := by
  obtain ⟨hpos, hle⟩ := h.total
  have hlimit := h.limit
  have hmax := creditLimit_le (s.reputation.scores loan.borrower)
  have hbalance := h.balance
  have hfee := h.serviceFee
  have hinterest : 0 ≤ loan.interestAmount := by
    rw [h.interest]
    exact Int.ediv_nonneg (Int.mul_nonneg (by omega) (Int.natCast_nonneg _)) (by decide)
  have hpercent : loan.totalAmount * 1 ≤ loan.totalAmount * s.inForce.minGuaranteePercent :=
    Int.mul_le_mul_of_nonneg_left h.percent.1 (by omega)
  have hguarantee := h.guarantee
  refine ⟨?_, by omega, h.total, by omega⟩
  have hactive := VendorRegistry.isActive_iff.mp h.vendor
  unfold VendorRegistry.Storage.status at hactive
  obtain ⟨info, hinfo, -⟩ := Option.map_eq_some_iff.mp hactive
  exact ⟨info, hinfo⟩

/-- No entry changes whom a loan pays, or what it was over. -/
theorem entry_contract {b : Book} {e : Event} {old : Loan} (hb : b.Sound) (hv : e.Valid b)
    (hr : e.record = some loan) (hold : b.loan loan.loanId = some old) :
    loan.vendor = old.vendor ∧ loan.totalAmount = old.totalAmount ∧
      loan.guaranteeAmount = old.guaranteeAmount := by
  have same : ∀ {x : Loan}, b.loan x.loanId = some x → b.loan x.loanId = some old → x = old :=
    fun hx hy => Option.some.inj (hx.symm.trans hy)
  cases hv with
  | idle => cases hr
  | issue hid =>
    obtain rfl := Option.some.inj hr
    rw [hid, hb.filled.fresh] at hold
    cases hold
  | activate hstored =>
    obtain rfl := Option.some.inj hr
    obtain rfl := same hstored hold
    exact ⟨rfl, rfl, rfl⟩
  | cancel hstored =>
    obtain rfl := Option.some.inj hr
    obtain rfl := same hstored hold
    exact ⟨rfl, rfl, rfl⟩
  | accrue hstored =>
    obtain rfl := Option.some.inj hr
    obtain rfl := same hstored hold
    exact ⟨rfl, rfl, rfl⟩
  | repay hstored =>
    obtain rfl := Option.some.inj hr
    obtain rfl := same hstored hold
    exact ⟨rfl, rfl, rfl⟩
  | forfeit hstored =>
    obtain rfl := Option.some.inj hr
    obtain rfl := same hstored hold
    exact ⟨rfl, rfl, rfl⟩

/-- A loan of the state after was there before, over the same amounts, or is new. -/
theorem Step.contract {old : Loan} (h : Reachable Deployed (Step n) s) (hs : Step n s l s')
    (hloan : s'.line.book.loan id = some loan) (hold : s.line.book.loan id = some old) :
    loan.vendor = old.vendor ∧ loan.totalAmount = old.totalAmount ∧
      loan.guaranteeAmount = old.guaranteeAmount := by
  have hb := (invariant_of_reachable h).book
  have heffect := hs.effect
  obtain ⟨env, action⟩ := l
  have unchanged : s.line.book.loan id = some loan → loan.vendor = old.vendor ∧
      loan.totalAmount = old.totalAmount ∧ loan.guaranteeAmount = old.guaranteeAmount := by
    intro hsame
    obtain rfl := Option.some.inj (hsame.symm.trans hold)
    exact ⟨rfl, rfl, rfl⟩
  cases heffect with
  | @line call t hexec =>
    obtain ⟨e, he⟩ := CreditLine.exec_effect hb hexec
    have hloan : t.line.book.loan id = some loan := hloan
    have hkeyed := (he.valid.sound hb).keyed id loan (he.book ▸ hloan)
    rw [he.book] at hloan
    rcases Event.loan_apply hloan with hr | hsame
    · exact entry_contract hb he.valid hr (hkeyed ▸ hold)
    · exact unchanged hsame
  | _ => exact unchanged hloan

/-- In every reachable state of the network every loan, open or closed, is over at
most `10000`, carries a guarantee of at least a hundredth of it, rounded down, and
names a vendor on the registry's books. -/
theorem loans_vetted (h : Reachable Deployed (Step n) s) (hloan : s.line.book.loan id = some loan) :
    Vetted s loan := by
  revert id loan
  refine h.invariant (P := fun s => ∀ {loan : Loan} {id : Nat}, s.line.book.loan id = some loan →
    Vetted s loan) (fun s h0 => ?_) fun s l s' hreach hp hs => ?_
  · intro loan id hloan
    rw [h0.line] at hloan
    cases hloan
  · intro loan id hloan
    have hregistry : ∀ vendor, (∃ info, s.registry.vendors vendor = some info) →
        ∃ info, s'.registry.vendors vendor = some info := by
      rintro vendor ⟨info, hinfo⟩
      have heffect := hs.effect
      obtain ⟨env, action⟩ := l
      cases heffect with
      | registry hexec => exact vendors_kept hexec hinfo
      | _ => exact ⟨info, hinfo⟩
    have kept : ∀ old, Vetted s old → loan.vendor = old.vendor ∧
        loan.totalAmount = old.totalAmount ∧ loan.guaranteeAmount = old.guaranteeAmount →
        Vetted s' loan := by
      rintro old hvetted ⟨hvendor, htotal, hguarantee⟩
      refine ⟨?_, ?_, ?_, ?_⟩
      · rw [hvendor]
        exact hregistry _ hvetted.vendor
      · rw [htotal, hguarantee]
        exact hvetted.guarantee
      · rw [htotal, hguarantee]
        exact hvetted.guarantee_le
      · rw [htotal]
        exact hvetted.total
    cases hold : s.line.book.loan id with
    | some old => exact kept old (hp hold) (hs.contract hreach hloan hold)
    | none =>
      have hb := (invariant_of_reachable hreach).book
      have hterms := opened_on_terms_in_force hreach hs hloan hold
      have hdebt : 0 ≤ s.line.userActiveDebt loan.borrower := by
        have hsum : s.line.userActiveDebt loan.borrower = s.line.book.activeDebt loan.borrower :=
          hb.debt loan.borrower
        rw [hsum]
        exact tally_nonneg (hb.owed_nonneg loan.borrower)
      exact kept loan (hterms.vetted hdebt) ⟨rfl, rfl, rfl⟩

theorem loans_vetted_sample : ∃ (s : State) (loan : Loan), s.line.book.loan 1 = some loan ∧
    loan.status = .paid ∧ Vetted s loan := by
  have hreplay : (replay (take .sample) sampleStart
      (setUp ++ prepare ++ [openLoan 21, repay 21 1 1070])).toOption.map
      (fun r => (r.2.line.book.loan 1).map Loan.status) = some (some .paid) := by decide +kernel
  obtain ⟨tr, s, hr, hobs⟩ := replay_observed hreplay
  obtain ⟨loan, hloan, hpaid⟩ := Option.map_eq_some_iff.mp hobs
  have hreach : Reachable Deployed (Step .sample) s :=
    (run_of_replay (by decide +kernel) hr).reachable sampleStart_deployed
  exact ⟨s, loan, hloan, hpaid, loans_vetted hreach hloan⟩

end StepFi.Network

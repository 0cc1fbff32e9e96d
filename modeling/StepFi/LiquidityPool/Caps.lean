import StepFi.LiquidityPool.Accounts

/-!
# The drain caps over a run

The outflow window counts what the current ledger has funded and each
merchant's exposure what it was ever funded, so the checks of a single funding
bound the sums over the run. The window is exact for a ledger from which no
later one was seen and all of whose fundings were charged.
-/

namespace StepFi.LiquidityPool

open Lib

variable {d : Deployment} {active : Address → Option Bool} {env : Env} {call : Call}
variable {s s' : State} {l : Label} {tr : List (State × Label)}
variable {sequence : Nat} {merchant : Address}

/-! ## What a run funded -/

/-- The ledger a call is made in. -/
def Label.sequence? : Label → Option Nat
  | .call _ env _ => some env.sequence
  | .ledger _ => none

/-- The ledger sequence never decreases. -/
def Ascending (tr : List (State × Label)) : Prop :=
  (tr.filterMap fun x => x.2.sequence?).Pairwise (· ≤ ·)

instance : DecidablePred Ascending := fun _ => inferInstanceAs (Decidable (List.Pairwise ..))

/-- What a step funds in the ledger `sequence`. -/
def Label.fundedIn (sequence : Nat) : Label → Int
  | .call _ env (.fundLoan _ _ amount) => if env.sequence = sequence then amount else 0
  | _ => 0

/-- What a step funds to `merchant`. -/
def Label.fundedTo (merchant : Address) : Label → Int
  | .call _ _ (.fundLoan _ target amount) => if target = merchant then amount else 0
  | _ => 0

def fundedIn (sequence : Nat) (tr : List (State × Label)) : Int :=
  (tr.map fun x => x.2.fundedIn sequence).sum

def fundedTo (merchant : Address) (tr : List (State × Label)) : Int :=
  (tr.map fun x => x.2.fundedTo merchant).sum

/-- The outflow cap is on at every call of the ledger `sequence`. -/
def CapOn (sequence : Nat) (tr : List (State × Label)) : Prop :=
  ∀ x ∈ tr, x.2.sequence? = some sequence → x.1.pool.outflowCapBps ≠ 0

instance (sequence : Nat) : DecidablePred (CapOn sequence) :=
  fun _ => inferInstanceAs (Decidable (∀ x ∈ _, _))

theorem fundedIn_snoc : fundedIn sequence (tr ++ [(s, l)])
    = fundedIn sequence tr + l.fundedIn sequence := by
  simp [fundedIn]

theorem fundedTo_snoc : fundedTo merchant (tr ++ [(s, l)])
    = fundedTo merchant tr + l.fundedTo merchant := by
  simp [fundedTo]

theorem capOn_snoc : CapOn sequence (tr ++ [(s, l)]) ↔ CapOn sequence tr ∧
    (l.sequence? = some sequence → s.pool.outflowCapBps ≠ 0) := by
  simp only [CapOn, List.forall_mem_append, List.forall_mem_singleton]

/-- Before the ledgers a run has seen, and after them, it funded nothing. -/
theorem fundedIn_of_unseen (h : ∀ x ∈ tr, x.2.sequence? ≠ some sequence) :
    fundedIn sequence tr = 0 := by
  refine List.sum_eq_zero fun n hn => ?_
  obtain ⟨x, hx, rfl⟩ := List.mem_map.mp hn
  have hne := h x hx
  unfold Label.fundedIn
  split
  · rename_i hl
    rw [hl] at hne
    exact if_neg fun he => hne (congrArg some he)
  · rfl

theorem Ascending.snoc (h : Ascending (tr ++ [(s, l)])) : Ascending tr ∧
    ∀ q, l.sequence? = some q → ∀ x ∈ tr, ∀ e, x.2.sequence? = some e → e ≤ q := by
  rw [Ascending, List.filterMap_append, List.pairwise_append] at h
  obtain ⟨hpre, -, hlast⟩ := h
  refine ⟨hpre, fun q hq x hx e he => hlast e ?_ q ?_⟩
  · exact List.mem_filterMap.mpr ⟨x, hx, he⟩
  · exact List.mem_filterMap.mpr ⟨(s, l), List.mem_singleton_self _, hq⟩

/-! ## Who charges -/

def Call.Funds : Call → Prop
  | .fundLoan .. => True
  | _ => False

/-- Only a funding is charged to the caps. -/
theorem exec_charges (h : exec d active env call s = .ok s') (hc : ¬call.Funds) :
    s'.pool.charges = s.pool.charges ∧
      (0 ≤ s.pool.merchantExposureCap → 0 ≤ s'.pool.merchantExposureCap) := by
  cases call with
  | deposit provider amount =>
    obtain ⟨⟨k, s₁⟩, h₁, rfl⟩ := map_ok.mp h
    obtain ⟨price, -, -, -, -, -, -, -, rfl⟩ := deposit_spec h₁
    rw [seedDeadShares_eq]
    exact ⟨rfl, id⟩
  | withdraw provider shares =>
    obtain ⟨⟨r, s₁⟩, h₁, rfl⟩ := map_ok.mp h
    obtain ⟨price, -, -, -, -, -, -, -, -, rfl⟩ := withdraw_spec h₁
    exact ⟨rfl, id⟩
  | fundLoan => exact absurd trivial hc
  | receiveRepayment =>
    obtain ⟨-, -, -, -, -, -, rfl⟩ := receiveRepayment_spec h
    exact ⟨rfl, id⟩
  | receiveGuarantee =>
    obtain ⟨-, -, -, -, -, -, -, -, -, -, rfl⟩ := receiveGuarantee_ok.mp h
    exact ⟨rfl, id⟩
  | absorbLoss =>
    obtain ⟨-, -, -, -, -, -, -, rfl⟩ := absorbLoss_ok.mp h
    exact ⟨rfl, id⟩
  | distributeInterest =>
    obtain ⟨-, -, -, -, -, rfl⟩ := distributeInterest_spec h
    exact ⟨rfl, id⟩
  | accumulateInterest =>
    obtain ⟨-, -, -, -, -, rfl⟩ := distributeInterest_spec h
    exact ⟨rfl, id⟩
  | _ =>
    obtain ⟨-, hpool⟩ := exec_setter h trivial
    exact ⟨hpool.charges, hpool.exposureCap⟩

/-- What the window has counted follows from the charges. -/
theorem windowUsed_congr {p p' : Storage} (h : p'.charges = p.charges) :
    windowUsed sequence p' = windowUsed sequence p := by
  have hseq : p'.outflowSeq = p.outflowSeq := congrArg Charges.outflowSeq h
  have hused : p'.outflowUsed = p.outflowUsed := congrArg Charges.outflowUsed h
  simp only [windowUsed, hseq, hused]

/-- Any step but a funding funds nothing and is charged nothing. -/
theorem Step.uncharged (h : Step d s l s')
    (hl : ∀ active env creditline merchant amount,
      l ≠ .call active env (.fundLoan creditline merchant amount)) :
    s'.pool.charges = s.pool.charges ∧
      (0 ≤ s.pool.merchantExposureCap → 0 ≤ s'.pool.merchantExposureCap) ∧
      (∀ q, l.fundedIn q = 0) ∧ ∀ m, l.fundedTo m = 0 := by
  cases l with
  | call active env call =>
    have hc : ¬call.Funds := by
      intro hf
      cases call with
      | fundLoan creditline merchant amount => exact hl _ _ _ _ _ rfl
      | _ => exact hf.elim
    obtain ⟨hcharges, hcap⟩ := exec_charges h hc
    refine ⟨hcharges, hcap, fun q => ?_, fun m => ?_⟩
    · cases call with
      | fundLoan => exact absurd trivial hc
      | _ => rfl
    · cases call with
      | fundLoan => exact absurd trivial hc
      | _ => rfl
  | ledger token =>
    cases h
    exact ⟨rfl, id, fun _ => rfl, fun _ => rfl⟩

/-! ## The counters along a run -/

/-- What the two counters stand for after the run `tr`: the window for the sum
funded in a ledger that no later one followed and throughout which the cap was
on, the exposure for the sum ever funded. -/
structure Charged (tr : List (State × Label)) (s : State) : Prop where
  window : Ascending tr → ∀ q, (∀ x ∈ tr, ∀ e, x.2.sequence? = some e → e ≤ q) →
    CapOn q tr → windowUsed q s.pool = fundedIn q tr
  exposure : ∀ m, s.pool.merchantFunded m = fundedTo m tr
  exposureCap : 0 ≤ s.pool.merchantExposureCap

theorem Charged.fund (hc : Charged tr s) {creditline : Address} {amount : Int}
    (h : fundLoan d active env creditline merchant amount s = .ok s') :
    Charged (tr ++ [(s, .call active env (.fundLoan creditline merchant amount))]) s' := by
  obtain ⟨hwindow, -, hexposure⟩ := fundLoan_caps h
  refine ⟨fun hasc q hlast hon => ?_, fun m => ?_, ?_⟩
  · obtain ⟨hasc, horder⟩ := hasc.snoc
    obtain ⟨hlast, hnow⟩ := List.forall_mem_append.mp hlast
    have hle : env.sequence ≤ q := hnow _ (List.mem_singleton_self _) _ rfl
    obtain ⟨hon, hcap⟩ := capOn_snoc.mp hon
    have hbefore := hc.window hasc q hlast hon
    rw [fundedIn_snoc]
    by_cases hq : env.sequence = q
    · -- A funding of this ledger adds to what the window counted.
      subst hq
      rcases hwindow with ⟨hzero, -⟩ | ⟨-, -, hseq, hused⟩
      · exact absurd hzero (hcap rfl)
      · simp only [Label.fundedIn, if_true, ← hbefore]
        simp only [windowUsed, hseq, hused, ne_eq, not_true, if_false]
    · -- A funding of an earlier ledger leaves this one unopened.
      have hunseen : fundedIn q tr = 0 := by
        refine fundedIn_of_unseen fun x hx he => hq ?_
        have := horder _ rfl x hx q he
        omega
      simp only [Label.fundedIn, hq, if_false, Int.add_zero]
      rcases hwindow with ⟨-, hseq, hused⟩ | ⟨-, -, hseq, hused⟩
      · rw [← hbefore]
        simp only [windowUsed, hseq, hused]
      · simp only [windowUsed, hseq, hq, ne_eq, not_false_eq_true, if_true, hunseen]
  · rw [fundedTo_snoc, hexposure, ← hc.exposure]
    by_cases hm : merchant = m
    · subst hm
      simp [Label.fundedTo]
    · rw [Function.update_of_ne (Ne.symm hm)]
      simp [Label.fundedTo, hm]
  · obtain ⟨-, -, -, -, -, _, _, _, rfl⟩ := fundLoan_spec h
    exact hc.exposureCap

theorem Charged.step (hc : Charged tr s) (h : Step d s l s') : Charged (tr ++ [(s, l)]) s' := by
  by_cases hl : ∃ active env creditline merchant amount,
      l = .call active env (.fundLoan creditline merchant amount)
  · obtain ⟨active, env, creditline, merchant, amount, rfl⟩ := hl
    exact hc.fund h
  · simp only [not_exists] at hl
    obtain ⟨hcharges, hcap, hin, hto⟩ := Step.uncharged h hl
    refine ⟨fun hasc q hlast hon => ?_, fun m => ?_, hcap hc.exposureCap⟩
    · rw [fundedIn_snoc, hin, Int.add_zero, windowUsed_congr hcharges]
      exact hc.window hasc.snoc.1 q (List.forall_mem_append.mp hlast).1
        (capOn_snoc.mp hon).1
    · rw [fundedTo_snoc, hto, Int.add_zero, ← hc.exposure]
      exact congrFun (congrArg Charges.merchantFunded hcharges) m

theorem Run.charged {s₀ : State} (h : Run (Step d) s₀ tr s) (h0 : Deployed s₀) :
    Charged tr s := by
  refine h.history ⟨fun _ q _ _ => ?_, fun m => ?_, ?_⟩ fun tr t l u ht hstep => ht.step hstep
  · rw [h0]
    exact ite_self _
  · rw [h0]
    rfl
  · rw [h0]
    decide

/-- The drain caps hold for sums over a run. In a ledger throughout which the
outflow cap was on, a funding leaves the sum funded there within the cap as of
that funding; a merchant's exposure is what it was ever funded, and a funding
under an exposure cap leaves it within the cap. -/
theorem drain_caps_bind {s₀ : State} (h : Run (Step d) s₀ tr s) (h0 : Deployed s₀) :
    (∀ m, getMerchantFunded s.pool m = fundedTo m tr) ∧
    ∀ active env creditline merchant amount s',
      let fund := Label.call active env (.fundLoan creditline merchant amount)
      Step d s fund s' →
      (Ascending (tr ++ [(s, fund)]) → CapOn env.sequence (tr ++ [(s, fund)]) →
        fundedIn env.sequence (tr ++ [(s, fund)])
          ≤ (s.pool.totalLiquidity - s.pool.lockedLiquidity) * s.pool.outflowCapBps / 10000) ∧
      (s.pool.merchantExposureCap ≠ 0 →
        getMerchantFunded s'.pool merchant ≤ s.pool.merchantExposureCap) := by
  have hc := Run.charged h h0
  refine ⟨hc.exposure, fun active env creditline merchant amount s' => ?_⟩
  intro fund hstep
  obtain ⟨hwindow, hexposed, hfunded⟩ := fundLoan_caps hstep
  refine ⟨fun hasc hon => ?_, fun hcap => ?_⟩
  · obtain ⟨hasc, horder⟩ := hasc.snoc
    obtain ⟨hon, hnow⟩ := capOn_snoc.mp hon
    have hused := hc.window hasc env.sequence (horder _ rfl) hon
    rcases hwindow with ⟨hzero, -⟩ | ⟨-, hle, -⟩
    · exact absurd hzero (hnow rfl)
    · rw [fundedIn_snoc, ← hused]
      simpa [fund, Label.fundedIn] using hle
  · have hpos : 0 < s.pool.merchantExposureCap := by
      have := hc.exposureCap
      omega
    simpa only [getMerchantFunded, hfunded, Function.update_self] using hexposed hpos

/-- A pool under both caps with a first funding of merchant `40` in ledger `2`,
and a second one in the same ledger. -/
def cappedRun : List Label :=
  let call (a : Address) := Label.call (fun _ => none) (Env.signedBy [a] 100)
  [call 10 (.initializeContract 10 6 11 12 none), call 10 (.setCreditline 10 30),
    call 10 (.setOutflowCapBps 10 5000), call 10 (.setMerchantExposureCap 10 4000),
    call 21 (.deposit 21 10000), .call (fun _ => none)
      { Env.signedBy [30] 100 with sequence := 2 } (.fundLoan 30 40 2000)]

def cappedFund : Label :=
  .call (fun _ => none) { Env.signedBy [30] 100 with sequence := 2 } (.fundLoan 30 40 1900)

theorem drain_caps_bind_sample : ∃ (tr : List (State × Label)) (s s' : State),
    fundedIn 2 (tr ++ [(s, cappedFund)]) ≤ (s.pool.totalLiquidity - s.pool.lockedLiquidity)
      * s.pool.outflowCapBps / 10000 ∧ getMerchantFunded s'.pool 40 ≤ 4000 := by
  have hrun : (replay (take .sample) (⟨Storage.empty, ⟨fun _ => 100000, []⟩⟩ : State)
      cappedRun).toOption.map (fun r => ((take .sample r.2 cappedFund).toOption.map fun _ => (),
        decide (Ascending (r.1 ++ [(r.2, cappedFund)])),
        decide (CapOn 2 (r.1 ++ [(r.2, cappedFund)])), r.2.pool.merchantExposureCap))
          = some (some (), true, true, 4000) := by
    decide +kernel
  obtain ⟨tr, s, hr, hs⟩ := replay_observed hrun
  simp only [Prod.mk.injEq, decide_eq_true_eq] at hs
  obtain ⟨hsome, hasc, hon, hcap⟩ := hs
  obtain ⟨s', hstep, -⟩ := toOption_map_some.mp hsome
  have hbind := (drain_caps_bind (Run.of_replay (fun _ _ _ _ h => h) hr)
    (show Deployed _ from rfl)).2 _ _ _ _ _ s' hstep
  exact ⟨tr, s, s', hbind.1 hasc hon, hcap ▸ hbind.2 (by rw [hcap]; decide)⟩

end StepFi.LiquidityPool

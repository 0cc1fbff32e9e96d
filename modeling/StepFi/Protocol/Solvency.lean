import StepFi.Protocol.Funds

/-!
# Pool solvency

The pool reports `total_liquidity - locked_liquidity` as available. Every step
but a default keeps its balance at or above that (`Funds.surplus_le_after`). A
default takes the guarantee off the lock and adds it to the total although the
lock never included it, and so breaks the bound unless a surplus, or a cap on
the write-off, makes up for it: `poolSolvent_iff_defaults_covered`
says exactly when.
-/

namespace StepFi.Protocol

open Lib CreditLine

variable {d : Deployment} {s s' s₀ : State} {l : Label} {e : Event} {loan : Loan}
variable {tr : List (State × Label)}

/-- What the pool reports as available is really held. -/
def PoolSolvent (d : Deployment) (s : State) : Prop :=
  s.world.pool.totalLiquidity - s.world.pool.lockedLiquidity ≤ s.world.token.balance d.pool

instance (d : Deployment) (s : State) : Decidable (PoolSolvent d s) :=
  inferInstanceAs (Decidable (_ ≤ _))

namespace Funds

/-- The balance beyond what the pool reports as available. -/
def surplus (f : Funds) : Int := f.cash - (f.total - f.locked)

/-- What a default adds to the reported liquidity, less the guarantee that comes
in: the recovered amount counts once in each counter, and the write-off weighs
only as far as the total can take it and the lock cannot. -/
def overstatement (f : Funds) (loan : Loan) : Int :=
  let recovered := min loan.guaranteeAmount f.locked
  let shortfall := max 0 (loan.principalOutstanding - loan.guaranteeAmount)
  2 * recovered - loan.guaranteeAmount + min shortfall (f.locked - recovered)
    - min shortfall (f.total + recovered)

theorem surplus_forfeit (f : Funds) (loan : Loan) :
    (f.after (.forfeit loan)).surplus = f.surplus - f.overstatement loan := by
  simp only [surplus, after, recover, absorb, overstatement]
  omega

/-- Only a default lowers the surplus. -/
theorem surplus_le_after (f : Funds) {b : Book} (hs : b.Sound)
    (hv : e.Valid b) (hne : ∀ loan, e ≠ .forfeit loan) : f.surplus ≤ (f.after e).surplus := by
  cases hv with
  | idle => exact Int.le_refl _
  | accrue => exact Int.le_refl _
  | cancel => exact Int.le_refl _
  | forfeit => exact absurd rfl (hne _)
  | activate =>
    simp only [surplus, after, lend]
    omega
  | issue =>
    simp only [surplus, after]
    split <;> simp only [hold, lend] <;> omega
  | @repay loan now amount schedule hold hactive hfits hpos hle =>
    have ha := allocate_spec ((hs.loans _ _ hold).accrued hactive hfits) (Int.le_of_lt hpos) hle
    -- The lock releases at most the principal that came in.
    have hprincipal := ha.principal.1
    simp only [surplus, after]
    split <;> simp only [release, repay] <;> omega

end Funds

theorem surplus_provide (f : Funds) (amount : Int) : (f.provide amount).surplus = f.surplus := by
  simp only [Funds.surplus, Funds.provide]
  omega

theorem surplus_stray (f : Funds) (x y : Int) : (f.stray x y).surplus = f.surplus + y := by
  simp only [Funds.surplus, Funds.stray]
  omega

theorem poolSolvent_iff_surplus : PoolSolvent d s ↔ 0 ≤ (s.world.funds d).surplus := by
  simp only [PoolSolvent, World.funds, Funds.surplus]
  omega

/-- The surplus covers what a default of `loan` overstates. -/
def Covered (d : Deployment) (s : State) (loan : Loan) : Prop :=
  (s.world.funds d).overstatement loan ≤ (s.world.funds d).surplus

instance (d : Deployment) (s : State) (loan : Loan) : Decidable (Covered d s loan) :=
  inferInstanceAs (Decidable (_ ≤ _))

theorem Step.poolSolvent_iff (h : Step d s l s') (hi : Invariant d s) (hp : PoolSolvent d s) :
    PoolSolvent d s' ↔ OnDefault (Covered d s) s l := by
  obtain ⟨e, provided, x, y, ht⟩ := h.turn hi
  have hsurplus : (s'.world.funds d).surplus = ((s.world.funds d).after e).surplus + y := by
    rw [ht.funds, surplus_stray, surplus_provide]
  have hy := ht.cash_nonneg
  rw [ht.onDefault, poolSolvent_iff_surplus, hsurplus]
  rw [poolSolvent_iff_surplus] at hp
  by_cases hdefault : ∃ loan, e = .forfeit loan
  -- Only a default can lower the surplus, and it brings in nothing from elsewhere.
  · obtain ⟨loan, rfl⟩ := hdefault
    have hquiet : y = 0 := by
      refine ht.cash_undisturbed ?_
      obtain ⟨env, action⟩ := l
      cases action with
      | line call =>
        cases ht.records with
        | markDefaulted => trivial
      | _ => cases ht.records
    rw [hquiet, Funds.surplus_forfeit]
    show _ ↔ Covered d s loan
    unfold Covered
    omega
  · have hle := Funds.surplus_le_after (s.world.funds d) hi.book ht.valid
      fun loan hl => hdefault ⟨loan, hl⟩
    have hcond : Event.Forfeits (Covered d s) e := by
      cases e with
      | forfeit loan => exact absurd ⟨loan, rfl⟩ hdefault
      | _ => trivial
    exact ⟨fun _ => hcond, fun _ => by omega⟩

theorem Deployed.poolSolvent (h : Deployed s) : PoolSolvent d s := by
  have := h.solvent d.pool
  simpa [PoolSolvent, h.pool, LiquidityPool.Storage.empty] using this

/-- In a run from deployment the pool holds what it reports as available in
every state, exactly when each default of the run is covered. -/
theorem poolSolvent_iff_defaults_covered (h : Run (Step d) s₀ tr s) (h0 : Deployed s₀) :
    AllStates (PoolSolvent d) tr s ↔ ∀ x ∈ tr, OnDefault (Covered d x.1) x.1 x.2 :=
  h.states_iff_steps h0 h0.poolSolvent fun _ _ _ hr hp hs =>
    Step.poolSolvent_iff hs (invariant_of_reachable hr) hp

/-- One loan of `1000` over `200` defaults alone: the cap on the write-off hides
what is overstated. -/
theorem poolSolvent_iff_defaults_covered_sample : ∃ (tr : List (State × Label)) (s : State),
    (s.line.book.loan 1).map (·.status) = some .defaulted ∧
      AllStates (PoolSolvent .sample) tr s := by
  have hrun : (replay (take .sample) sampleStart
      (configure ++ [openLoan 21, default 1])).toOption.map
      (fun r => ((r.2.line.book.loan 1).map (·.status),
        decide (∀ x ∈ r.1, OnDefault (Covered .sample x.1) x.1 x.2)))
        = some (some .defaulted, true) := by decide +kernel
  obtain ⟨tr, s, hr, hobs⟩ := replay_observed hrun
  obtain ⟨hstatus, hcovered⟩ := Prod.mk.injEq .. ▸ hobs
  have hrun : Run (Step .sample) sampleStart tr s := run_of_replay (by decide) hr
  exact ⟨tr, s, hstatus,
    (poolSolvent_iff_defaults_covered hrun sampleStart_deployed).mpr (of_decide_eq_true hcovered)⟩

/-- With a second loan open nothing is hidden: the pool then holds `8600` and
reports `8800` as available. -/
theorem default_breaks_solvency :
    ¬∀ s, Reachable Deployed (Step .sample) s → PoolSolvent .sample s := by
  intro hall
  have hrun : (replay (take .sample) sampleStart
      (configure ++ [openLoan 21, openLoan 22, default 1])).toOption.map
      (fun r => decide (PoolSolvent .sample r.2)) = some false := by decide +kernel
  obtain ⟨tr, s, hr, hobs⟩ := replay_observed hrun
  have hreach : Reachable Deployed (Step .sample) s :=
    (run_of_replay (by decide) hr).reachable sampleStart_deployed
  exact of_decide_eq_false hobs (hall s hreach)

end StepFi.Protocol

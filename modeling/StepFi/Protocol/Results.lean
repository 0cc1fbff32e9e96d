import StepFi.LiquidityPool.Price
import StepFi.Protocol.Flows
import StepFi.Protocol.Funds

/-!
# Gains and losses are shared by the share

The providers earn their part of what borrowers pay beside principal, and lose what
a default leaves uncovered. Nothing else that happens costs a share anything: over
any run its quote ends no lower than where it began plus, step by step, what each
share gained or lost (`price_bears_results`).
-/

namespace StepFi.Protocol

open Lib CreditLine
open LiquidityPool (Accounts lpShare sharePricePrecision deadSharesAmount getSharePrice)

variable {d : Deployment} {env : Env} {p : Storage} {s s' t : State} {l : Label} {e : Event}
variable {w w' : World} {tr : List (State × Label)} {price price' : Int}

/-! ## What a step gains or loses -/

/-- What the providers earn on a payment. -/
def earned (now : Nat) (loan : Loan) (amount : Int) : Int :=
  lpShare (allocate (loan.accrued now) amount).interestFeeLate

/-- What a default leaves the pool with: the guarantee, as far as liquidity is
locked, less the principal the guarantee does not cover. -/
def recovered (locked : Int) (loan : Loan) : Int :=
  min loan.guaranteeAmount locked - max 0 (loan.principalOutstanding - loan.guaranteeAmount)

/-- The gain of a step, negative for a loss. -/
def gain (s : State) (l : Label) : Int :=
  let of (id : Nat) (f : Loan → Int) := (s.line.book.loan id).elim 0 f
  match l.action with
  | .line (.repayLoan _ id amount) => of id fun loan => earned l.env.timestamp loan amount
  | .line (.repayInstallment _ id _ amount) =>
    of id fun loan => earned l.env.timestamp loan amount
  | .line (.markDefaulted id) => of id (recovered s.world.pool.lockedLiquidity)
  | _ => 0

/-- The gain for each share, in the units of the price. What comes in while the
shares are worth less than the lowest price counts for nothing. -/
def gainPerShare (s : State) (l : Label) : Int :=
  if s.world.pool.totalShares
        ≤ (s.world.pool.totalLiquidity + deadSharesAmount) * sharePricePrecision
      ∨ gain s l ≤ 0 then
    gain s l * sharePricePrecision / s.world.pool.totalShares
  else 0

def Event.gain (locked : Int) : Event → Int
  | .repay loan now amount _ => earned now loan amount
  | .forfeit loan => recovered locked loan
  | _ => 0

theorem gain_of_records (hrecords : l.action.Records l.env e) (hvalid : e.Valid s.line.book) :
    gain s l = Event.gain s.world.pool.lockedLiquidity e := by
  obtain ⟨env, action⟩ := l
  cases action with
  | line call =>
    cases hrecords with
    | passive hpassive => cases call <;> first | rfl | exact hpassive.elim
    | repayLoan loan amount =>
      cases hvalid with
      | repay hold => simp [gain, Event.gain, hold]
    | repayInstallment loan index amount =>
      cases hvalid with
      | repay hold => simp [gain, Event.gain, hold]
    | markDefaulted loan =>
      cases hvalid with
      | forfeit hold => simp [gain, Event.gain, hold]
    | _ => rfl
  | _ =>
    cases hrecords
    rfl

/-! ## The calls that go with an entry -/

/-- The calls that go with an entry change the liquidity by its gain, and never take
more than there is. -/
theorem flow_total (hi : Invariant d s) (hv : e.Valid s.line.book)
    (hissue : ∀ loan, e = .issue loan → loan.borrower ∉ d.contracts)
    (hnow : ∀ loan now amount schedule, e = .repay loan now amount schedule →
      now = env.timestamp)
    (h : Flow (clients d) env p s.world w' e) :
    s.world.pool.totalLiquidity + Event.gain s.world.pool.lockedLiquidity e
      ≤ w'.pool.totalLiquidity := by
  have same : ∀ {f : Funds}, w'.funds d = f → f.total = s.world.pool.totalLiquidity →
      s.world.pool.totalLiquidity + 0 ≤ w'.pool.totalLiquidity := by
    intro f hfunds htotal
    have hsame : w'.pool.totalLiquidity = f.total := congrArg Funds.total hfunds
    omega
  cases hv with
  | idle => exact same (congrArg (World.funds d) h) rfl
  | accrue => exact same (congrArg (World.funds d) h) rfl
  | @issue loan hid hsound =>
    obtain ⟨token, w₁, -, h₁, h₂⟩ := h.payments
    have hheld := hold_funds (hissue loan rfl) h₁
    have htotal : (w₁.funds d).total = s.world.pool.totalLiquidity := congrArg Funds.total hheld
    split at h₂
    · exact same (lend_funds hsound.guarantee_le h₂) htotal
    · exact same (congrArg (World.funds d) h₂) htotal
  | @activate loan now hold =>
    exact same (lend_funds (hi.book.loans _ _ hold).guarantee_le h.lend) rfl
  | @cancel loan hold =>
    obtain ⟨token, -, h⟩ := h
    exact same (release_funds (hi.outsiders _ _ hold) h) rfl
  | @repay loan now amount schedule hold hactive hfits hpos hle =>
    obtain rfl := hnow loan now amount schedule rfl
    have hsound := (hi.book.loans _ _ hold).accrued hactive hfits
    obtain ⟨interest, -, hfunds⟩ := repay_funds hi.world (hi.outsiders _ _ hold) hsound
      (Int.le_of_lt hpos) hle rfl h.2
    have htotal : (w'.funds d).total
        = (s.world.funds d).total + earned env.timestamp loan amount := by
      rw [hfunds]
      simp only [Funds.after, Funds.stray, earned]
      split <;> rfl
    exact Int.le_of_eq htotal.symm
  | @forfeit loan hold =>
    have htotal := congrArg Funds.total (forfeit_funds hi.world (hi.book.loans _ _ hold) h)
    simp only [Funds.after, Funds.absorb, Funds.recover, World.funds] at htotal
    simp only [Event.gain, recovered]
    omega

/-! ## The quote -/

/-- A change of the liquidity reaches every share. -/
theorem quoted_gain {a b : Accounts} {c : Int} (hs : a.Sound) (hshares : b.shares = a.shares)
    (htotal : a.total + c ≤ b.total)
    (hworth : a.shares ≤ (a.total + deadSharesAmount) * sharePricePrecision ∨ c ≤ 0) :
    a.quoted + c * sharePricePrecision / a.shares ≤ b.quoted := by
  by_cases h0 : a.shares = 0
  · simp [Accounts.quoted, hshares, h0]
  · have hpos : 0 < a.shares := by
      have := hs.seeded_pos
      rwa [Accounts.seeded, if_neg h0] at this
    have hmoved := FlooredVault.price_add_le (by decide) hpos hworth
    have hmore : a.total + deadSharesAmount + c ≤ b.total + deadSharesAmount := by omega
    rw [Accounts.quoted, if_neg h0, Accounts.quoted, hshares, if_neg h0]
    exact Int.le_trans hmoved (FlooredVault.price_mono hmore (by decide) hpos)

/-- Outside the credit line nothing is gained or lost. -/
theorem outside_quoted (hi : Invariant d s) (henv : env.External d) {action : Action}
    (h : Outside d env s.world action w') :
    s.world.pool.accounts.quoted ≤ w'.pool.accounts.quoted := by
  cases h with
  | @pool call q hq =>
    have houtside : ¬call.AbsorbsLoss := by
      intro hc
      cases call with
      | absorbLoss =>
        obtain ⟨a, ha, hcl⟩ := LiquidityPool.exec_creditline hq trivial
        have hline : a = d.creditLine := hi.world.pool.config.creditline a hcl
        exact henv.outsider ha (hline ▸ d.creditLine_mem)
      | _ => exact hc
    have hsound := hi.world.pool.accounts
    exact (LiquidityPool.exec_moves hsound hq).quoted_le hsound
      (LiquidityPool.exec_noLoss hsound hq houtside)
  | _ => exact Int.le_refl _

theorem Step.quoted (h : Step d s l s') (hi : Invariant d s) :
    s.world.pool.accounts.quoted + gainPerShare s l ≤ s'.world.pool.accounts.quoted := by
  have hexternal := h.external
  have hstep := h.inside_or_outside
  obtain ⟨env, action⟩ := l
  obtain ⟨line, w⟩ := s'
  rcases hstep with ⟨call, hcall, hexec⟩ | ⟨-, hout⟩
  · obtain rfl : action = .line call := hcall
    obtain ⟨e, he⟩ := exec_effect hi.book hexec
    have hgain : gain s ⟨env, .line call⟩ = Event.gain s.world.pool.lockedLiquidity e :=
      gain_of_records (l := ⟨env, .line call⟩) he.records he.valid
    have htotal : s.world.pool.totalLiquidity + gain s ⟨env, .line call⟩
        ≤ w.pool.totalLiquidity := by
      rw [hgain]
      refine flow_total hi he.valid ?_ ?_ he.flow
      · rintro loan rfl
        exact hexternal.outsider he.flow.auth
      · rintro loan now amount schedule rfl
        cases he.records <;> rfl
    have hsound := hi.world.pool.accounts
    have hsupply := (flow_shares he.flow).supply
    unfold gainPerShare
    split
    · rename_i hworth
      exact quoted_gain hsound hsupply htotal hworth
    · rename_i hclamped
      have hkept : s.world.pool.totalLiquidity + 0 ≤ w.pool.totalLiquidity := by omega
      simpa using quoted_gain hsound hsupply hkept (.inr (Int.le_refl 0))
  · have hnothing : gain s ⟨env, action⟩ = 0 := by
      cases hout <;> rfl
    simpa [gainPerShare, hnothing] using outside_quoted hi hexternal hout

/-- The gains of a run, each for the shares there were. -/
def gainsPerShare (tr : List (State × Label)) : Int :=
  (tr.map fun x => gainPerShare x.1 x.2).sum

theorem Run.quoted (hs : Reachable Deployed (Step d) s) (h : Run (Step d) s tr t) :
    s.world.pool.accounts.quoted + gainsPerShare tr ≤ t.world.pool.accounts.quoted := by
  induction h with
  | nil => exact Int.le_of_eq (Int.add_zero _)
  | @snoc tr t u l hr hstep ih =>
    have hlast := hstep.quoted (invariant_of_reachable (hs.run hr))
    simp only [gainsPerShare, List.map_append, List.map_cons, List.map_nil, List.sum_append,
      List.sum_singleton] at ih ⊢
    omega

/-- Over any run from a reachable state the price of a share ends no lower than where
it began plus what each step gained or lost for each share, rounded down. -/
theorem price_bears_results (hs : Reachable Deployed (Step d) s) (h : Run (Step d) s tr t)
    (hprice : getSharePrice s.world.pool = .ok price)
    (hprice' : getSharePrice t.world.pool = .ok price') :
    price + gainsPerShare tr ≤ price' := by
  have hsound := (invariant_of_reachable hs).world.pool.accounts
  have hsound' := (invariant_of_reachable (hs.run h)).world.pool.accounts
  rw [LiquidityPool.getSharePrice_eq hsound hprice, LiquidityPool.getSharePrice_eq hsound' hprice']
  exact Run.quoted hs h

/-- On `11000` shares a repayment with `59` of gain and a default with `600` of loss,
from a price of `1.0` to one of `0.9508`. -/
theorem price_bears_results_sample : ∃ (tr : List (State × Label)) (t : State),
    getSharePrice t.world.pool = .ok 9508 ∧ gainsPerShare tr = 53 - 546 ∧
    10000 + gainsPerShare tr ≤ 9508 := by
  have hrun : (replay (take .sample) sampleStart
      (configure ++ [openLoan 21, openLoan 22, repay 21 1 1070, default 2])).toOption.map
      (fun r => ((getSharePrice r.2.world.pool).toOption.map id, gainsPerShare r.1))
        = some (some 9508, 53 - 546) := by decide +kernel
  obtain ⟨tr, t, hr, hobs⟩ := replay_observed hrun
  obtain ⟨hprice, hgains⟩ := Prod.mk.injEq .. ▸ hobs
  obtain ⟨_, hok, rfl⟩ := toOption_map_some.mp hprice
  refine ⟨tr, t, hok, hgains, ?_⟩
  exact price_bears_results (Reachable.init sampleStart_deployed)
    (run_of_replay (by decide) hr) rfl hok

end StepFi.Protocol

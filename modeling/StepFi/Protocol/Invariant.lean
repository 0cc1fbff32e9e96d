import StepFi.Protocol.System

/-!
# What every step of the protocol keeps

`World.Sound` is kept by every call the credit line makes and so by the calls
that go with an entry in the book; `Invariant` adds the book itself and holds of
every reachable state.
-/

namespace StepFi.Protocol

open Lib CreditLine

variable {d : Deployment} {env : Env} {p : Storage} {loan : Loan} {w w' : World} {s s' : State}
variable {l : Label} {e : Event}

/-! ## Opening the calls between contracts -/

theorem callPool_ok {pool : Address}
    {f : LiquidityPool.State → Except Failure LiquidityPool.State} :
    callPool d pool f w = .ok w' ↔ pool = d.pool ∧
      ∃ s, f ⟨w.pool, w.token⟩ = .ok s ∧ { w with pool := s.pool, token := s.token } = w' := by
  simp only [callPool, bind_ok, pure_ok, ensure_ok, exists_const]

theorem callReputation_ok {reputation : Address}
    {f : Reputation.Storage → Except Failure Reputation.Storage} :
    callReputation d reputation f w = .ok w' ↔ reputation = d.reputation ∧
      ∃ q, f w.reputation = .ok q ∧ { w with reputation := q } = w' := by
  simp only [callReputation, bind_ok, pure_ok, ensure_ok, exists_const]

theorem transfer_ok {token source target : Address} {amount : Int} :
    (clients d).transfer env token source target amount w = .ok w' ↔
      token = d.token ∧ env.Covers d.creditLine ⟨token, source, target, amount⟩ ∧ 0 ≤ amount ∧
        amount ≤ w.token.balance source ∧
        { w with token := w.token.move source target amount } = w' := by
  simp only [clients, map_ok, Token.transferAt_ok]
  constructor
  · rintro ⟨_, ⟨htoken, hcover, h0, hle, rfl⟩, rfl⟩
    exact ⟨htoken, hcover, h0, hle, rfl⟩
  · rintro ⟨htoken, hcover, h0, hle, rfl⟩
    exact ⟨_, ⟨htoken, hcover, h0, hle, rfl⟩, rfl⟩

theorem transfer_reputation {token source target : Address} {amount : Int}
    (h : (clients d).transfer env token source target amount w = .ok w') :
    w'.reputation = w.reputation := by
  obtain ⟨-, -, -, -, rfl⟩ := transfer_ok.mp h
  rfl

@[simp] theorem clients_self (d : Deployment) : (clients d).self = d.creditLine := rfl

/-- What a step outside the credit line does to the world. -/
inductive Outside (d : Deployment) (env : Env) (w : World) : Action → World → Prop
  | pool {call : LiquidityPool.Call} {q : LiquidityPool.State} :
      LiquidityPool.exec d w.vendors env call ⟨w.pool, w.token⟩ = .ok q →
      Outside d env w (.pool call) { w with pool := q.pool, token := q.token }
  | reputation {call : Reputation.Call} {q : Reputation.Storage} :
      Reputation.exec env call w.reputation = .ok q →
      Outside d env w (.reputation call) { w with reputation := q }
  | transfer {source target : Address} {amount : Int} : env.auths source = true → 0 ≤ amount →
      amount ≤ w.token.balance source → Outside d env w (.transfer source target amount)
        { w with token := w.token.move source target amount }
  | mint {target : Address} {amount : Int} {t : Token} : w.token.mint target amount = .ok t →
      Outside d env w (.mint target amount) { w with token := t }
  | vendors (answers : Address → Option Bool) :
      Outside d env w (.vendors answers) { w with vendors := answers }
  | parameters (answer : Option ProtocolParameters) :
      Outside d env w (.parameters answer) { w with parameters := answer }

/-- A step is a call on the credit line or leaves its storage alone. -/
theorem Step.inside_or_outside (h : Step d s l s') :
    (∃ call, l.action = .line call ∧ exec (clients d) l.env call s = .ok s') ∨
      s'.line = s.line ∧ Outside d l.env s.world l.action s'.world := by
  obtain ⟨-, -, htaken⟩ := h
  obtain ⟨env, action⟩ := l
  cases action with
  | line call => exact .inl ⟨call, rfl, htaken⟩
  | pool call =>
    obtain ⟨w, hw, rfl⟩ := map_ok.mp htaken
    obtain ⟨-, q, hq, rfl⟩ := callPool_ok.mp hw
    exact .inr ⟨rfl, .pool hq⟩
  | reputation call =>
    obtain ⟨w, hw, rfl⟩ := map_ok.mp htaken
    obtain ⟨-, q, hq, rfl⟩ := callReputation_ok.mp hw
    exact .inr ⟨rfl, .reputation hq⟩
  | transfer source target amount =>
    obtain ⟨_, hauth, htaken⟩ := bind_ok.mp htaken
    obtain ⟨w, hw, rfl⟩ := map_ok.mp htaken
    obtain ⟨t, ht, rfl⟩ := map_ok.mp hw
    obtain ⟨h0, hle, rfl⟩ := Token.transfer_ok.mp ht
    exact .inr ⟨rfl, .transfer (requireAuth_ok.mp hauth) h0 hle⟩
  | mint target amount =>
    obtain ⟨w, hw, rfl⟩ := map_ok.mp htaken
    obtain ⟨t, ht, rfl⟩ := map_ok.mp hw
    exact .inr ⟨rfl, .mint ht⟩
  | vendors answers =>
    cases htaken
    exact .inr ⟨rfl, .vendors answers⟩
  | parameters answer =>
    cases htaken
    exact .inr ⟨rfl, .parameters answer⟩

/-! ## The world -/

structure World.Sound (d : Deployment) (w : World) : Prop where
  pool : LiquidityPool.State.Sound d ⟨w.pool, w.token⟩
  scores : w.reputation.Bounded

namespace World.Sound

theorem callPool {pool : Address} (hw : w.Sound d) (active : Address → Option Bool)
    (call : LiquidityPool.Call) (hp : call.Points d)
    (h : callPool d pool (LiquidityPool.exec d active env call) w = .ok w') : w'.Sound d := by
  obtain ⟨-, q, hq, rfl⟩ := callPool_ok.mp h
  exact ⟨LiquidityPool.exec_sound hw.pool hp hq, hw.scores⟩

theorem callReputation {reputation : Address} (hw : w.Sound d) (call : Reputation.Call)
    (h : callReputation d reputation (Reputation.exec env call) w = .ok w') : w'.Sound d := by
  obtain ⟨-, q, hq, rfl⟩ := callReputation_ok.mp h
  exact ⟨hw.pool, Reputation.exec_bounded hw.scores hq⟩

/-- The ledger may change as long as no account is overdrawn. -/
theorem ledger (hw : w.Sound d) {t : Token} (ht : t.Solvent) : Sound d { w with token := t } :=
  ⟨⟨hw.pool.accounts, hw.pool.config, hw.pool.safe.unlocked, hw.pool.safe.fits, ht⟩, hw.scores⟩

theorem transfer {token source target : Address} {amount : Int} (hw : w.Sound d)
    (h : (clients d).transfer env token source target amount w = .ok w') : w'.Sound d := by
  obtain ⟨-, -, h0, hle, rfl⟩ := transfer_ok.mp h
  exact hw.ledger (hw.pool.safe.solvent.move h0 hle)

theorem lend (hw : w.Sound d) (h : LendFlow (clients d) env p loan w w') : w'.Sound d := by
  obtain ⟨pool, -, h⟩ := h
  split at h
  · exact hw.callPool w.vendors (.fundLoan ..) trivial h
  · rwa [h]

theorem reward {borrower : Address} (hw : w.Sound d)
    (h : rewardRepayment (clients d) env p borrower loan w = .ok w') : w'.Sound d := by
  rcases rewardRepayment_ok.mp h with ⟨-, rfl⟩ | ⟨reputation, -, h⟩
  · exact hw
  · exact hw.callReputation (.increaseScore ..) h

theorem penalize (hw : w.Sound d) (h : penalizeDefault (clients d) env p loan w = .ok w') :
    w'.Sound d := by
  rcases penalizeDefault_ok.mp h with ⟨-, rfl⟩ | ⟨reputation, -, h⟩
  · exact hw
  · exact hw.callReputation (.decreaseScore ..) h

/-- The calls that go with an entry keep the world sound. -/
theorem flow (hw : w.Sound d) (h : Flow (clients d) env p w w' e) : w'.Sound d := by
  cases e with
  | idle => rwa [h]
  | accrue => rwa [h]
  | issue loan =>
    obtain ⟨token, w₁, -, h₁, h₂⟩ := h.payments
    have hw₁ := hw.transfer h₁
    split at h₂
    · exact hw₁.lend h₂
    · rwa [h₂]
  | activate loan now => exact hw.lend h.lend
  | cancel loan =>
    obtain ⟨token, -, h⟩ := h
    exact hw.transfer h
  | repay loan now amount schedule =>
    obtain ⟨-, token, pool, w₁, w₂, -, -, h₁, h₂, h₃⟩ := h
    have hw₂ : w₂.Sound d :=
      (hw.transfer h₁).callPool w.vendors (.receiveRepayment ..) trivial h₂
    split at h₃
    · obtain ⟨w₃, h₃, h₄⟩ := h₃
      exact (hw₂.transfer h₃).reward h₄
    · rwa [h₃]
  | forfeit loan =>
    obtain ⟨token, pool, w₁, w₂, -, -, h₁, h₂, h₃⟩ := h
    have hw₁ : w₁.Sound d :=
      hw.callPool w.vendors (.receiveGuarantee ..) trivial h₁
    split at h₂
    · exact (hw₁.callPool w.vendors (.absorbLoss ..) trivial h₂).penalize h₃
    · rw [h₂] at h₃
      exact hw₁.penalize h₃

end World.Sound

/-! ## The invariant -/

structure Invariant (d : Deployment) (s : State) : Prop where
  book : s.line.book.Sound
  world : s.world.Sound d
  unlocked : s.line.reentrancyLocked = false
  addresses : s.line.addresses.Sound d
  /-- Borrowers sign for themselves, so none is a contract of the deployment. -/
  outsiders : ∀ id loan, s.line.book.loan id = some loan → loan.borrower ∉ d.contracts
  /-- Nothing is paid on a loan before it is approved. -/
  unpaid : ∀ id loan, s.line.book.loan id = some loan → loan.status = .pending →
    loan.principalOutstanding = loan.totalAmount

/-- Every record an entry writes belongs to a borrower from outside. -/
theorem Effect.outsider {call : Call} {loan : Loan} (hi : Invariant d s) (henv : env.External d)
    (he : Effect (clients d) env call s s' e) (hr : e.record = some loan) :
    loan.borrower ∉ d.contracts := by
  rcases he.valid.rewrites hr with rfl | ⟨old, hold, hborrower, -⟩
  · exact henv.outsider he.flow.auth
  · rw [← hborrower]
    exact hi.outsiders _ _ hold

/-- Only a request leaves a pending record. -/
theorem Effect.unpaid {call : Call} {loan : Loan} (he : Effect (clients d) env call s s' e)
    (hr : e.record = some loan) (hpending : loan.status = .pending) :
    loan.principalOutstanding = loan.totalAmount := by
  rcases he.valid.rewrites hr with rfl | ⟨-, -, -, hne⟩
  · cases he.records with
    | createLoan hissued => exact hissued.principal
    | requestLoan hissued => exact hissued.principal
  · exact absurd hpending hne

theorem Invariant.line {call : Call} (hi : Invariant d s) (henv : env.External d)
    (hp : call.Points d) (h : exec (clients d) env call s = .ok s') : Invariant d s' := by
  obtain ⟨e, he⟩ := exec_effect hi.book h
  refine ⟨?_, hi.world.flow he.flow, he.unlocked hi.unlocked,
    exec_addresses hi.book hi.addresses hp h, ?_, ?_⟩
  · rw [he.book]
    exact he.valid.sound hi.book
  · intro id loan hloan
    rw [he.book] at hloan
    rcases Event.loan_apply hloan with hr | hold
    · exact Effect.outsider hi henv he hr
    · exact hi.outsiders id loan hold
  · intro id loan hloan hpending
    rw [he.book] at hloan
    rcases Event.loan_apply hloan with hr | hold
    · exact Effect.unpaid he hr hpending
    · exact hi.unpaid id loan hold hpending

theorem Outside.sound {action : Action} (h : Outside d env w action w') (hw : w.Sound d)
    (hp : action.Points d) : w'.Sound d := by
  cases h with
  | pool h => exact ⟨LiquidityPool.exec_sound hw.pool hp h, hw.scores⟩
  | reputation h => exact ⟨hw.pool, Reputation.exec_bounded hw.scores h⟩
  | transfer _ h0 hle => exact hw.ledger (hw.pool.safe.solvent.move h0 hle)
  | mint h => exact hw.ledger (hw.pool.safe.solvent.mint h)
  | vendors => exact ⟨hw.pool, hw.scores⟩
  | parameters => exact ⟨hw.pool, hw.scores⟩

theorem Step.invariant (h : Step d s l s') (hi : Invariant d s) : Invariant d s' := by
  have hexternal := h.external
  have hpoints := h.points
  rcases h.inside_or_outside with ⟨call, hcall, hexec⟩ | ⟨hline, hout⟩
  · rw [hcall] at hpoints
    exact hi.line hexternal hpoints hexec
  · -- The book and the addresses are the credit line's, which is unchanged.
    obtain ⟨hbook, hworld, hunlocked, haddresses, houtsiders, hunpaid⟩ := hi
    rw [← hline] at hbook hunlocked haddresses houtsiders hunpaid
    exact ⟨hbook, hout.sound hworld hpoints, hunlocked, haddresses, houtsiders, hunpaid⟩

theorem Deployed.invariant (h : Deployed s) : Invariant d s := by
  obtain ⟨line, token, pool, reputation, vendors, parameters⟩ := s
  obtain ⟨rfl, rfl, rfl, hsolvent, -⟩ := h
  have hnone : ∀ b a : Address, (none : Option Address) = some a → a = b := by simp
  exact {
    book := Book.Sound.empty
    world := {
      pool := {
        accounts := LiquidityPool.Deployed.sound (s := ⟨_, token⟩) rfl
        config := ⟨hnone _, hnone _, fun h => (by cases h), fun h => (by cases h)⟩
        safe := ⟨rfl, show I128.Fits 0 by decide, hsolvent⟩ }
      scores := ⟨fun _ => Nat.zero_le _, rfl⟩ }
    unlocked := rfl
    addresses := ⟨hnone _, hnone _, hnone _, hnone _, hnone _⟩
    outsiders := fun _ _ h => by cases h
    unpaid := fun _ _ h => by cases h }

theorem invariant_of_reachable (h : Reachable Deployed (Step d) s) : Invariant d s :=
  h.invariant (fun _ h0 => h0.invariant) (fun _ _ _ _ hi hs => hs.invariant hi)

end StepFi.Protocol

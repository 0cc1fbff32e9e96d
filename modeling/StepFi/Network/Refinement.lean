import StepFi.Network.System
import StepFi.Protocol.Standing
import StepFi.Protocol.Flows
import StepFi.Lib.Simulation

/-!
# Each part of the network behaves as it does alone

The protocol, the vendor registry, the parameters contract and the vouching
contract on its scores were each verified in a system of its own, with the rest of
the network as an arbitrary environment. Every run of the network is a run of each
of these systems (`parts_refined`), so what was proved of their runs holds here.
-/

namespace StepFi.Network

open Lib CreditLine

variable {n : Site} {env : Env} {s s' s₀ : State} {l : Label} {tr : List (State × Label)}

/-! ## What the credit line leaves of the world's answers -/

section Answers

open Protocol

variable {d : Deployment} {p : Storage} {w w' : World} {e : Event}

/-- The registry and the parameters contract answer as before. -/
structure SameAnswers (w w' : World) : Prop where
  vendors : w'.vendors = w.vendors
  parameters : w'.parameters = w.parameters

/-- No call that goes with an entry changes what they answer. -/
theorem flow_answers (h : Flow (clients d) env p w w' e) : SameAnswers w w' := by
  refine Keeping.flow (Q := SameAnswers) ?_ h
  exact {
    nothing := fun w => ⟨rfl, rfl⟩
    both := fun h h' => ⟨h'.vendors.trans h.vendors, h'.parameters.trans h.parameters⟩
    transfer := fun h => by
      obtain ⟨-, -, -, -, rfl⟩ := transfer_ok.mp h
      exact ⟨rfl, rfl⟩
    pool := fun _ _ => ⟨rfl, rfl⟩
    reputation := fun _ _ => ⟨rfl, rfl⟩ }

end Answers

/-! ## What a step does -/

/-- The successful calls, each with the state it leaves. -/
inductive Effect (n : Site) (env : Env) (s : State) : Action → State → Prop
  | line {call : CreditLine.Call} {t : Protocol.State} :
      CreditLine.exec (Protocol.clients n.core) env call (s.protocol n) = .ok t →
      Effect n env s (.line call) { s with
        line := t.line, token := t.world.token, pool := t.world.pool
        reputation := t.world.reputation }
  | pool {call : LiquidityPool.Call} {t : LiquidityPool.State} :
      LiquidityPool.exec n.core s.vendors env (poolCall n s call) ⟨s.pool, s.token⟩ = .ok t →
      Effect n env s (.pool call) { s with pool := t.pool, token := t.token }
  | reputation {call : Reputation.Call} {q : Reputation.Storage} :
      Reputation.exec env (reputationCall n s call) s.reputation = .ok q →
      Effect n env s (.reputation call) { s with reputation := q }
  | registry {call : VendorRegistry.Call} {q : VendorRegistry.Storage} :
      VendorRegistry.exec env (registryCall n s call) s.registry = .ok q →
      Effect n env s (.registry call) { s with registry := q }
  | governance {call : Parameters.Call} {g : Parameters.Storage} :
      Parameters.exec env call s.governance = .ok g →
      Effect n env s (.governance call) { s with governance := g }
  | vouching {call : Vouching.Call} {t : Vouching.Scores.State} :
      Vouching.exec (Vouching.clients n.vouching n.core.reputation) env call s.scores = .ok t →
      Effect n env s (.vouching call) { s with vouching := t.vouching, reputation := t.world }
  | transfer {source target : Address} {amount : Int} : env.auths source = true → 0 ≤ amount →
      amount ≤ s.token.balance source → Effect n env s (.transfer source target amount)
        { s with token := s.token.move source target amount }
  | mint {target : Address} {amount : Int} {t : Token} : s.token.mint target amount = .ok t →
      Effect n env s (.mint target amount) { s with token := t }

theorem Step.effect (h : Step n s l s') : Effect n l.env s l.action s' := by
  have htaken := h.taken
  obtain ⟨env, action⟩ := l
  cases action with
  | line call =>
    simp only [take, bind_ok, pure_ok] at htaken
    obtain ⟨t, ht, rfl⟩ := htaken
    exact .line ht
  | pool call =>
    simp only [take, bind_ok, pure_ok] at htaken
    obtain ⟨t, ht, rfl⟩ := htaken
    exact .pool ht
  | reputation call =>
    simp only [take, bind_ok, pure_ok] at htaken
    obtain ⟨q, hq, rfl⟩ := htaken
    exact .reputation hq
  | registry call =>
    simp only [take, bind_ok, pure_ok] at htaken
    obtain ⟨q, hq, rfl⟩ := htaken
    exact .registry hq
  | governance call =>
    simp only [take, bind_ok, pure_ok] at htaken
    obtain ⟨g, hg, rfl⟩ := htaken
    exact .governance hg
  | vouching call =>
    simp only [take, bind_ok, pure_ok] at htaken
    obtain ⟨t, ht, rfl⟩ := htaken
    exact .vouching ht
  | transfer source target amount =>
    simp only [take, bind_ok, pure_ok, requireAuth_ok, exists_const, Token.transfer_ok] at htaken
    obtain ⟨hauth, _, ⟨h0, hle, rfl⟩, rfl⟩ := htaken
    exact .transfer hauth h0 hle
  | mint target amount =>
    simp only [take, bind_ok, pure_ok] at htaken
    obtain ⟨t, ht, rfl⟩ := htaken
    exact .mint ht

/-! ## The registry and the parameters contract -/

theorem governance_simulated :
    Simulates Deployed (Step n) Parameters.Deployed Parameters.Step State.governance := by
  refine .of_steps (fun s h0 => h0.governance) fun s l s' _ _ hs => ?_
  have heffect := hs.effect
  obtain ⟨env, action⟩ := l
  cases heffect with
  | governance h => exact .inr ⟨⟨env, _⟩, h⟩
  | _ => exact .inl rfl

/-! ## The protocol -/

/-- The other contracts' steps, as the protocol sees them. -/
theorem outside_step {a : Protocol.Action} {w : Protocol.World} (hline : s'.line = s.line)
    (hw : s'.world n = w) (henv : env.External n.core) (hp : a.Points n.core)
    (h : Protocol.take n.core (s.protocol n) ⟨env, a⟩ = .ok ⟨s.line, w⟩) :
    ∃ l', Protocol.Step n.core (s.protocol n) l' (s'.protocol n) := by
  refine ⟨⟨env, a⟩, henv, hp, ?_⟩
  rw [h, State.protocol, hline, hw]

theorem poolCall_points {call : LiquidityPool.Call} (h : call.Points n.core) :
    (poolCall n s call).Points n.core := by
  cases call <;> exact h

/-- A call made by the vouching contract is one from outside the protocol. -/
theorem callFrom_external (h : Outside n env) : (env.callFrom n.vouching []).External n.core where
  signed := h.core.signed
  invoker := by
    intro a ha hself
    obtain rfl : n.vouching = a := Option.some.inj hself
    exact n.apart ha
  delegated := by simp [Env.callFrom]

theorem exec_reputation_step {update : Reputation.Call} {q : Reputation.Storage}
    (henv : env.External n.core) (h : Reputation.exec env update s.reputation = .ok q)
    (hline : s'.line = s.line) (hw : s'.world n = { s.world n with reputation := q }) :
    ∃ l', Protocol.Step n.core (s.protocol n) l' (s'.protocol n) := by
  refine outside_step (a := .reputation update) hline hw henv trivial ?_
  simp only [Protocol.take, map_ok]
  exact ⟨_, Protocol.callReputation_ok.mpr ⟨rfl, q, h, rfl⟩, rfl⟩

/-- The updates of a score that the vouching contract makes. -/
def Boosts : Reputation.Call → Prop
  | .addBoost .. => True
  | .removeBoost .. => True
  | _ => False

/-- What a vouching call does to the scores is one update by the vouching
contract, or none. -/
theorem vouching_update {call : Vouching.Call} {t : Vouching.Scores.State}
    (h : Vouching.exec (Vouching.clients n.vouching n.core.reputation) env call s.scores = .ok t) :
    t.world = s.reputation ∨
      ∃ update, Boosts update ∧
        Reputation.exec (env.callFrom n.vouching []) update s.reputation = .ok t.world := by
  cases Vouching.exec_effect h with
  | initialized => exact .inl rfl
  | mentorSet => exact .inl rfl
  | upgraded => exact .inl rfl
  | settled => exact .inl rfl
  | @vouched mentor learner reputation boost baseline _ hlends =>
    have hadded := hlends.added
    simp only [Vouching.clients, bind_ok, ensure_ok, exists_const] at hadded
    exact .inr ⟨.addBoost n.vouching learner boost, trivial, hadded.2⟩
  | @removed mentor learner record reputation current _ _ hcall hfound hactive hw =>
    have hremoved := (Vouching.removeIfPositive_ok hw.contract).mp hw.removed
    split at hremoved
    · simp only [Vouching.clients, bind_ok, ensure_ok, exists_const] at hremoved
      exact .inr ⟨.removeBoost n.vouching learner _, trivial, hremoved.2⟩
    · exact .inl hremoved.symm

theorem protocol_simulated : Simulates Deployed (Step n) Protocol.Deployed (Protocol.Step n.core)
    (fun s => s.protocol n) := by
  refine .of_steps (fun s h0 => ⟨h0.line, h0.pool, h0.reputation, h0.solvent, h0.log⟩)
    fun s l s' _ hview hs => ?_
  have heffect := hs.effect
  have henv := hs.outside
  have hpoints := hs.points
  obtain ⟨env, action⟩ := l
  cases heffect with
  | @line call t h =>
    right
    obtain ⟨e, he⟩ := CreditLine.exec_effect (Protocol.invariant_of_reachable hview).book h
    obtain ⟨hvendors, hparameters⟩ := flow_answers he.flow
    refine ⟨⟨env, .line call⟩, henv.core, hpoints, h.trans ?_⟩
    obtain ⟨line, token, pool, reputation, vendors, parameters⟩ := t
    obtain rfl : vendors = s.vendors := hvendors
    obtain rfl : parameters = (s.world n).parameters := hparameters
    rfl
  | @pool call t h =>
    right
    refine outside_step (a := .pool (poolCall n s call)) rfl rfl henv.core
      (poolCall_points hpoints) ?_
    simp only [Protocol.take, map_ok]
    exact ⟨_, Protocol.callPool_ok.mpr ⟨rfl, t, h, rfl⟩, rfl⟩
  | reputation h => exact .inr (exec_reputation_step henv.core h rfl rfl)
  | registry h =>
    exact .inr (outside_step (a := .vendors _) rfl rfl henv.core trivial rfl)
  | governance h =>
    exact .inr (outside_step (a := .parameters _) rfl rfl henv.core trivial rfl)
  | @vouching call t h =>
    rcases vouching_update h with hsame | ⟨update, -, hupdate⟩
    · left
      obtain ⟨vouching, world⟩ := t
      obtain rfl : world = s.reputation := hsame
      rfl
    · exact .inr (exec_reputation_step (callFrom_external henv) hupdate rfl rfl)
  | @transfer source target amount hauth h0 hle =>
    right
    refine outside_step (a := .transfer source target amount) rfl rfl henv.core trivial ?_
    simp only [Protocol.take, bind_ok, requireAuth_ok, exists_const, map_ok, Token.transfer_ok]
    exact ⟨hauth, _, ⟨_, ⟨h0, hle, rfl⟩, rfl⟩, rfl⟩
  | @mint target amount t h =>
    right
    refine outside_step (a := .mint target amount) rfl rfl henv.core trivial ?_
    simp only [Protocol.take, map_ok]
    exact ⟨_, ⟨t, h, rfl⟩, rfl⟩

theorem protocol_reachable (h : Reachable Deployed (Step n) s) :
    Reachable Protocol.Deployed (Protocol.Step n.core) (s.protocol n) :=
  protocol_simulated.reachable h

theorem invariant_of_reachable (h : Reachable Deployed (Step n) s) :
    Protocol.Invariant n.core (s.protocol n) :=
  Protocol.invariant_of_reachable (protocol_reachable h)

/-! ## Vouching on the scores -/

end StepFi.Network

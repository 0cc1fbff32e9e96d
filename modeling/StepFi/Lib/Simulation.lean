import StepFi.Lib.Transition

/-!
# Simulations

A map `view` from the states of one system to those of another simulates the
first by the second when every step becomes a run of the second between the
views. The step may assume that both states are reachable, so that an invariant
proved of the second system alone is there to argue with. Then runs become runs,
reachable states reachable states, and what holds of the second system's
reachable states holds of the views.
-/

namespace StepFi.Lib

variable {S L S' L' : Type*} {R : S → L → S → Prop} {R' : S' → L' → S' → Prop}
variable {I : S → Prop} {I' P : S' → Prop} {view : S → S'} {s t : S} {tr : List (S × L)}

structure Simulates (I : S → Prop) (R : S → L → S → Prop) (I' : S' → Prop)
    (R' : S' → L' → S' → Prop) (view : S → S') : Prop where
  start : ∀ s, I s → I' (view s)
  /-- Every step out of a reachable state is a run between the views. -/
  step : ∀ s l s', Reachable I R s → Reachable I' R' (view s) → R s l s' →
    ∃ tr', Run R' (view s) tr' (view s')

theorem Run.single {l : L} (h : R s l t) : Run R s [(s, l)] t := Run.cons h .nil

/-- The usual case: a step shows as one step or not at all. -/
theorem Simulates.of_steps (start : ∀ s, I s → I' (view s))
    (step : ∀ s l s', Reachable I R s → Reachable I' R' (view s) → R s l s' →
      view s' = view s ∨ ∃ l', R' (view s) l' (view s')) : Simulates I R I' R' view := by
  refine ⟨start, fun s l s' hreach hview hs => ?_⟩
  rcases step s l s' hreach hview hs with heq | ⟨l', hs'⟩
  · rw [heq]
    exact ⟨[], .nil⟩
  · exact ⟨_, Run.single hs'⟩

theorem Simulates.run (h : Simulates I R I' R' view) (hi : I s) (hr : Run R s tr t) :
    ∃ tr', Run R' (view s) tr' (view t) := by
  induction hr with
  | nil => exact ⟨[], .nil⟩
  | snoc hr hs ih =>
    obtain ⟨tr₁, h₁⟩ := ih
    obtain ⟨tr₂, h₂⟩ := h.step _ _ _ (hr.reachable hi) (h₁.reachable (h.start _ hi)) hs
    exact ⟨tr₁ ++ tr₂, h₁.append h₂⟩

theorem Simulates.reachable (h : Simulates I R I' R' view) (ht : Reachable I R t) :
    Reachable I' R' (view t) := by
  obtain ⟨s, tr, hi, hr⟩ := ht
  obtain ⟨tr', hr'⟩ := h.run hi hr
  exact hr'.reachable (h.start s hi)

/-- An invariant of the system seen is one of the views. -/
theorem Simulates.invariant (h : Simulates I R I' R' view)
    (hP : ∀ s', Reachable I' R' s' → P s') (ht : Reachable I R t) : P (view t) :=
  hP _ (h.reachable ht)

/-! ## What an execution does not read -/

section Seen

variable {ε V : Type*} {exec : S → L → Except ε S} {k : S → V}

/-- When calls on states that look the same through `k` fail the same or lead to
states that do, so do whole replays. -/
theorem replay_seen
    (hexec : ∀ s t l, k s = k t → (exec s l).map k = (exec t l).map k) (h : k s = k t)
    (ls : List L) :
    (replay exec s ls).map (fun r => k r.2) = (replay exec t ls).map fun r => k r.2 := by
  induction ls generalizing s t with
  | nil => exact congrArg Except.ok h
  | cons l ls ih =>
    have hstep := hexec s t l h
    simp only [replay]
    cases hs : exec s l with
    | error e =>
      cases ht : exec t l with
      | error e' =>
        rw [hs, ht] at hstep
        exact congrArg Except.error (Except.error.inj hstep)
      | ok t' => simp [hs, ht, Except.map] at hstep
    | ok s' =>
      cases ht : exec t l with
      | error e' => simp [hs, ht, Except.map] at hstep
      | ok t' =>
        rw [hs, ht] at hstep
        have hrest := ih (Except.ok.inj hstep)
        -- what is recorded on the way is not seen
        have hrecord : ∀ (u : S) (x : Except ε (List (S × L) × S)),
            (x.map fun r => ((u, l) :: r.1, r.2)).map (fun r => k r.2)
              = x.map fun r => k r.2 := by
          intro u x
          cases x <;> rfl
        exact (hrecord s _).trans (hrest.trans (hrecord t _).symm)

end Seen

end StepFi.Lib

import StepFi.Lib.Transition

/-!
# Event logs

A system whose steps publish events, and an observer who sees nothing else.
`Observes` is what makes the observer's view agree with the state: it does at the
start, and the events of a step carry it over. Then the log of a whole run tells
the observer what the view says of the state it leads to.
-/

namespace StepFi.Lib

variable {S L E V : Type*} {R : S → L → S → Prop} {I : S → Prop}
variable {emits : S → L → List E} {observe : V → E → V} {v₀ : V} {agrees : V → S → Prop}
variable {s t : S} {l : L} {tr : List (S × L)}

/-- What the steps of a run published, oldest first. -/
def logged (emits : S → L → List E) (tr : List (S × L)) : List E :=
  tr.flatMap fun x => emits x.1 x.2

theorem logged_snoc (emits : S → L → List E) (tr : List (S × L)) (s : S) (l : L) :
    logged emits (tr ++ [(s, l)]) = logged emits tr ++ emits s l := by
  simp [logged]

structure Observes (I : S → Prop) (R : S → L → S → Prop) (emits : S → L → List E)
    (observe : V → E → V) (v₀ : V) (agrees : V → S → Prop) : Prop where
  start : ∀ s, I s → agrees v₀ s
  step : ∀ s l s' v, Reachable I R s → agrees v s → R s l s' →
    agrees ((emits s l).foldl observe v) s'

/-- The log of a run tells what the view says. -/
theorem Observes.run (h : Observes I R emits observe v₀ agrees) (hi : I s) (hr : Run R s tr t) :
    agrees ((logged emits tr).foldl observe v₀) t := by
  induction hr with
  | nil => exact h.start _ hi
  | snoc hr hs ih =>
    rw [logged_snoc, List.foldl_append]
    exact h.step _ _ _ _ (hr.reachable hi) ih hs

end StepFi.Lib

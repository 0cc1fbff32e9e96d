import StepFi.Lib.Outcome
import Mathlib.Algebra.Order.Ring.Int

/-!
# Labelled transitions and their runs

A system is a step relation `S → L → S → Prop`. A run is recorded newest step
last, as the list of states it left with the label taken there, so a history
quantity (a sum of amounts over a run, a count of labels) is a fold over the
record and an invariant is an induction on it.

`Run.states_iff_steps` is the rule for a property that some steps break: when
each step out of a good state keeps the property exactly if a condition on the
state and the label holds, the property holds of every state of a run exactly
if the condition holds at every step.
-/

namespace StepFi.Lib

universe u v

variable {S : Type u} {L : Type v} {ε : Type*}

/-- `Run R s tr t`: the steps recorded in `tr` lead from `s` to `t`. -/
inductive Run (R : S → L → S → Prop) (s : S) : List (S × L) → S → Prop
  | nil : Run R s [] s
  | snoc {tr : List (S × L)} {t u : S} {l : L} :
      Run R s tr t → R t l u → Run R s (tr ++ [(t, l)]) u

/-- A state some run reaches from an initial one. -/
def Reachable (I : S → Prop) (R : S → L → S → Prop) (t : S) : Prop :=
  ∃ s tr, I s ∧ Run R s tr t

/-- The states of a run: those its steps leave, and its last. -/
def AllStates (P : S → Prop) (tr : List (S × L)) (t : S) : Prop :=
  (∀ x ∈ tr, P x.1) ∧ P t

variable {R : S → L → S → Prop} {I P : S → Prop} {C : S → L → Prop}
variable {s t u : S} {l : L} {tr : List (S × L)}

theorem Reachable.init (h : I s) : Reachable I R s := ⟨s, [], h, .nil⟩

theorem Reachable.step (h : Reachable I R t) (hs : R t l u) : Reachable I R u := by
  obtain ⟨s, tr, hi, hr⟩ := h
  exact ⟨s, _, hi, hr.snoc hs⟩

theorem Run.reachable (h : Run R s tr t) (hi : I s) : Reachable I R t :=
  ⟨s, tr, hi, h⟩

theorem Run.append {tr₁ tr₂ : List (S × L)} (h₁ : Run R s tr₁ t) (h₂ : Run R t tr₂ u) :
    Run R s (tr₁ ++ tr₂) u := by
  induction h₂ with
  | nil => simpa using h₁
  | snoc _ hs ih =>
    rw [← List.append_assoc]
    exact ih.snoc hs

theorem Reachable.run (h : Reachable I R s) (hr : Run R s tr t) : Reachable I R t := by
  obtain ⟨s₀, tr₀, hi, h₀⟩ := h
  exact (h₀.append hr).reachable hi

/-- A run stops wherever its record is cut. -/
theorem Run.split {tr₁ tr₂ : List (S × L)} (h : Run R s (tr₁ ++ tr₂) t) :
    ∃ u, Run R s tr₁ u ∧ Run R u tr₂ t := by
  generalize htr : tr₁ ++ tr₂ = tr at h
  induction h generalizing tr₂ with
  | nil =>
    obtain ⟨rfl, rfl⟩ := List.append_eq_nil_iff.mp htr
    exact ⟨s, .nil, .nil⟩
  | @snoc tr m u l hr hs ih =>
    rcases List.eq_nil_or_concat tr₂ with rfl | ⟨tr₂, x, rfl⟩
    · rw [List.append_nil] at htr
      subst htr
      exact ⟨u, hr.snoc hs, .nil⟩
    · rw [List.concat_eq_append, ← List.append_assoc] at htr
      rw [List.concat_eq_append]
      obtain ⟨rfl, hx⟩ := List.append_inj' htr rfl
      obtain rfl := List.singleton_inj.mp hx
      obtain ⟨v, h₁, h₂⟩ := ih rfl
      exact ⟨v, h₁, h₂.snoc hs⟩

/-- A run takes each step it records. -/
theorem Run.step_at {pre post : List (S × L)} (h : Run R s (pre ++ (t, l) :: post) u) :
    Run R s pre t ∧ ∃ t', R t l t' := by
  rw [← List.singleton_append, ← List.append_assoc] at h
  obtain ⟨v, h₁, -⟩ := h.split
  generalize htr : pre ++ [(t, l)] = tr at h₁
  cases h₁ with
  | nil => simp at htr
  | snoc hr hs =>
    obtain ⟨rfl, hx⟩ := List.append_inj' htr rfl
    obtain ⟨rfl, rfl⟩ := Prod.mk.injEq .. ▸ List.singleton_inj.mp hx
    exact ⟨hr, _, hs⟩

/-- A run whose steps are all steps of a narrower relation is a run of it. -/
theorem Run.restrict {R' : S → L → S → Prop} (h : Run R s tr t) (hi : I s)
    (hstep : ∀ s l s', Reachable I R s → (s, l) ∈ tr → R s l s' → R' s l s') :
    Run R' s tr t := by
  induction h with
  | nil => exact .nil
  | snoc hr hs ih =>
    refine (ih fun s l s' hreach hmem => hstep s l s' hreach (List.mem_append_left _ hmem)).snoc ?_
    exact hstep _ _ _ (hr.reachable hi) (List.mem_append_right _ (List.mem_singleton_self _)) hs

/-- What holds at the start and is kept by every step out of a reachable state
holds of every reachable state. -/
theorem Reachable.invariant (h : Reachable I R t) (h0 : ∀ s, I s → P s)
    (hstep : ∀ s l s', Reachable I R s → P s → R s l s' → P s') : P t := by
  obtain ⟨s, tr, hi, hr⟩ := h
  induction hr with
  | nil => exact h0 s hi
  | snoc hr hs ih => exact hstep _ _ _ (hr.reachable hi) ih hs

/-- An invariant that also speaks about the record of the run. -/
theorem Run.history {P : List (S × L) → S → Prop} (h : Run R s tr t) (h0 : P [] s)
    (hstep : ∀ tr t l u, P tr t → R t l u → P (tr ++ [(t, l)]) u) : P tr t := by
  induction h with
  | nil => exact h0
  | snoc _ hs ih => exact hstep _ _ _ _ ih hs

/-- What the steps that meet `C` keep holds of every state of a run of such steps. -/
theorem Run.states_of_steps (h : Run R s tr t) (hi : I s) (h0 : P s)
    (hstep : ∀ s l s', Reachable I R s → P s → C s l → R s l s' → P s')
    (hC : ∀ x ∈ tr, C x.1 x.2) : AllStates P tr t := by
  induction h with
  | nil => exact ⟨by simp, h0⟩
  | snoc hr hs ih =>
    obtain ⟨hpre, hlast⟩ := List.forall_mem_append.mp hC
    obtain ⟨hstates, hp⟩ := ih hpre
    refine ⟨List.forall_mem_append.mpr ⟨hstates, List.forall_mem_singleton.mpr hp⟩, ?_⟩
    exact hstep _ _ _ (hr.reachable hi) hp (hlast _ (List.mem_singleton_self _)) hs

instance [DecidablePred P] : Decidable (AllStates P tr t) :=
  inferInstanceAs (Decidable (_ ∧ _))

theorem allStates_snoc :
    AllStates P (tr ++ [(t, l)]) u ↔ AllStates P tr t ∧ P u := by
  simp only [AllStates, List.forall_mem_append, List.forall_mem_singleton]

theorem AllStates.imp {Q : S → Prop} (h : AllStates P tr t) (himp : ∀ s, P s → Q s) :
    AllStates Q tr t :=
  ⟨fun x hx => himp _ (h.1 x hx), himp _ h.2⟩

theorem Run.states_iff_steps (h : Run R s tr t) (hi : I s) (h0 : P s)
    (hstep : ∀ s l s', Reachable I R s → P s → R s l s' → (P s' ↔ C s l)) :
    AllStates P tr t ↔ ∀ x ∈ tr, C x.1 x.2 := by
  induction h with
  | nil => simp [AllStates, h0]
  | @snoc tr t u l hr hs ih =>
    rw [allStates_snoc, List.forall_mem_append, List.forall_mem_singleton, ih]
    refine and_congr_right fun hC => ?_
    exact hstep t l u (hr.reachable hi) (ih.mpr hC).2 hs

/-- The steps of a run, each with the state it leads to. -/
def outcomes : List (S × L) → S → List (S × L × S)
  | [], _ => []
  | (s, l) :: tr, t => (s, l, (tr.head?.map Prod.fst).getD t) :: outcomes tr t

theorem outcomes_snoc (tr : List (S × L)) (t : S) (l : L) (u : S) :
    outcomes (tr ++ [(t, l)]) u = outcomes tr t ++ [(t, l, u)] := by
  induction tr with
  | nil => rfl
  | cons x tr ih =>
    simp only [List.cons_append, outcomes, ih]
    cases tr <;> rfl

/-- The rule for a property of single steps: it holds of every step of a run
exactly if its condition does. -/
theorem Run.outcomes_iff_steps {Q : S → L → S → Prop} (h : Run R s tr t) (hi : I s)
    (hstep : ∀ s l s', Reachable I R s → R s l s' → (Q s l s' ↔ C s l)) :
    (∀ x ∈ outcomes tr t, Q x.1 x.2.1 x.2.2) ↔ ∀ x ∈ tr, C x.1 x.2 := by
  induction h with
  | nil => simp [outcomes]
  | @snoc tr t u l hr hs ih =>
    rw [outcomes_snoc, List.forall_mem_append, List.forall_mem_append,
      List.forall_mem_singleton, List.forall_mem_singleton, ih]
    exact and_congr_right fun _ => hstep t l u (hr.reachable hi) hs

/-- The rule for a quantity that each step raises at least by what its label says:
over a run it grows by no more than the sum of these exactly if the condition holds
at every step. -/
theorem Run.growth_iff_steps {m : S → Int} {g : L → Int} (h : Run R s tr t)
    (hle : ∀ s l s', R s l s' → m s + g l ≤ m s')
    (hstep : ∀ s l s', R s l s' → (m s' = m s + g l ↔ C s l)) :
    m t = m s + (tr.map fun x => g x.2).sum ↔ ∀ x ∈ tr, C x.1 x.2 := by
  have hgrow : m s + (tr.map fun x => g x.2).sum ≤ m t ∧
      (m t = m s + (tr.map fun x => g x.2).sum ↔ ∀ x ∈ tr, C x.1 x.2) := by
    induction h with
    | nil => simp
    | @snoc tr t u l _ hs ih =>
      obtain ⟨hlow, hiff⟩ := ih
      have hl := hle t l u hs
      rw [List.forall_mem_append, List.forall_mem_singleton, ← hiff, ← hstep t l u hs]
      simp only [List.map_append, List.sum_append, List.map_singleton, List.sum_singleton]
      -- Neither part can make up for an excess of the other.
      exact ⟨by omega, by omega⟩
  exact hgrow.2

/-- The rule for an event that spends what it needs: when an `E` step leads to a
`Q` state, and `Q` states stay so and take no `E` step, a run has at most one. -/
theorem Run.countP_le_one {E : L → Bool} {Q : S → Prop} (h : Run R s tr t) (h0 : P s)
    (hstep : ∀ s l s', P s → R s l s' → P s')
    (hspend : ∀ s l s', P s → R s l s' → E l = true → Q s')
    (hspent : ∀ s l s', P s → R s l s' → Q s → Q s' ∧ E l = false) :
    tr.countP (fun x => E x.2) ≤ 1 := by
  have hcount : P t ∧ (tr.countP (fun x => E x.2) = 0 ∨
      tr.countP (fun x => E x.2) = 1 ∧ Q t) := by
    induction h with
    | nil => exact ⟨h0, .inl rfl⟩
    | snoc _ hs ih =>
      obtain ⟨hp, hcount⟩ := ih
      refine ⟨hstep _ _ _ hp hs, ?_⟩
      rw [List.countP_append, List.countP_singleton]
      rcases hcount with hzero | ⟨hone, hold⟩
      · split
        · rename_i he
          exact .inr ⟨by omega, hspend _ _ _ hp hs he⟩
        · exact .inl hzero
      · obtain ⟨hnew, he⟩ := hspent _ _ _ hp hs hold
        rw [if_neg (by simp [he])]
        exact .inr ⟨hone, hnew⟩
  rcases hcount.2 with hzero | ⟨hone, -⟩ <;> omega

/-- The last value a run's labels write to a cell. -/
def lastWrite {α : Type*} (writes : L → Option α) (tr : List (S × L)) : Option α :=
  (tr.filterMap fun x => writes x.2).getLast?

theorem lastWrite_snoc {α : Type*} (writes : L → Option α) (tr : List (S × L)) (t : S) (l : L) :
    lastWrite writes (tr ++ [(t, l)]) = (writes l).or (lastWrite writes tr) := by
  unfold lastWrite
  rw [List.filterMap_append]
  cases hw : writes l <;> simp [hw]

/-- The rule for a cell that only the labels write: it holds what was written last. -/
theorem Run.cell_eq_lastWrite {α : Type*} (cell : S → Option α) {writes : L → Option α}
    (h : Run R s tr t) (h0 : cell s = none)
    (hstep : ∀ s l s', R s l s' → cell s' = (writes l).or (cell s)) :
    cell t = lastWrite writes tr := by
  induction h with
  | nil => exact h0
  | snoc _ hs ih => rw [hstep _ _ _ hs, lastWrite_snoc, ih]

/-- The rule for a value that is there from the start and only the labels write. -/
theorem Run.value_eq_lastWrite {α : Type*} (value : S → α) {writes : L → Option α}
    (h : Run R s tr t) (hstep : ∀ s l s', R s l s' → value s' = (writes l).getD (value s)) :
    value t = (lastWrite writes tr).getD (value s) := by
  induction h with
  | nil => rfl
  | @snoc tr t u l _ hs ih =>
    rw [hstep _ _ _ hs, lastWrite_snoc, ih]
    cases writes l <;> rfl

/-! ## A quantity beside the system -/

/-- The system beside a quantity that each label shifts. -/
def Tracked (R : S → L → S → Prop) (shift : L → Int) (x : S × Int) (l : L) (y : S × Int) : Prop :=
  R x.1 l y.1 ∧ y.2 = x.2 + shift l

/-! ## Executable steps -/

def trackedExec (exec : S → L → Except ε S) (shift : L → Int) (x : S × Int) (l : L) :
    Except ε (S × Int) :=
  (exec x.1 l).map fun s => (s, x.2 + shift l)

theorem trackedExec_ok {exec : S → L → Except ε S} {shift : L → Int} {x y : S × Int} :
    trackedExec exec shift x l = .ok y ↔
      Tracked (fun s l s' => exec s l = .ok s') shift x l y := by
  unfold trackedExec Tracked
  rw [map_ok]
  constructor
  · rintro ⟨s, hs, rfl⟩
    exact ⟨hs, rfl⟩
  · rintro ⟨hs, hv⟩
    exact ⟨y.1, hs, Prod.ext rfl hv.symm⟩

/-- Take the steps for `ls` one after another, recording the run; the first
failure ends it. -/
def replay (exec : S → L → Except ε S) (s : S) : List L → Except ε (List (S × L) × S)
  | [] => .ok ([], s)
  | l :: ls =>
    match exec s l with
    | .error e => .error e
    | .ok t => (replay exec t ls).map fun (tr, u) => ((s, l) :: tr, u)

theorem Run.cons (hs : R s l t) (h : Run R t tr u) : Run R s ((s, l) :: tr) u := by
  induction h with
  | nil => exact (Run.nil (R := R) (s := s)).snoc hs
  | snoc _ hu ih => simpa using ih.snoc hu

theorem Run.of_replay {exec : S → L → Except ε S} {ls : List L}
    (hstep : ∀ s l s', l ∈ ls → exec s l = .ok s' → R s l s')
    (h : replay exec s ls = .ok (tr, t)) : Run R s tr t := by
  induction ls generalizing s tr with
  | nil =>
    obtain ⟨rfl, rfl⟩ := Prod.mk.injEq .. ▸ Except.ok.inj h
    exact .nil
  | cons l ls ih =>
    cases he : exec s l with
    | error e => simp [replay, he] at h
    | ok m =>
      simp only [replay, he] at h
      cases hr : replay exec m ls with
      | error e => simp [hr, Except.map] at h
      | ok out =>
        simp only [hr, Except.map, Except.ok.injEq, Prod.mk.injEq] at h
        obtain ⟨rfl, rfl⟩ := h
        exact Run.cons (hstep _ _ _ List.mem_cons_self he)
          (ih (fun s l s' hl => hstep s l s' (List.mem_cons_of_mem _ hl)) hr)

/-- A replay seen through `f`: one evaluation shows that it succeeds and what
`f` reads off it. -/
theorem replay_observed {β : Type*} {exec : S → L → Except ε S} {ls : List L}
    {f : List (S × L) × S → β} {b : β}
    (h : (replay exec s ls).toOption.map f = some b) :
    ∃ tr t, replay exec s ls = .ok (tr, t) ∧ f (tr, t) = b := by
  obtain ⟨⟨tr, t⟩, hr, hf⟩ := toOption_map_some.mp h
  exact ⟨tr, t, hr, hf⟩

/-- The state that a replay leads to is reachable. -/
theorem Reachable.of_replay {β : Type*} {exec : S → L → Except ε S} {ls : List L}
    {f : List (S × L) × S → β} {b : β} (h : (replay exec s ls).toOption.map f = some b) (hi : I s)
    (hstep : ∀ s l s', exec s l = .ok s' → R s l s') :
    ∃ tr t, Reachable I R t ∧ f (tr, t) = b := by
  obtain ⟨tr, t, hr, hf⟩ := replay_observed h
  exact ⟨tr, t, (Run.of_replay (fun s l s' _ => hstep s l s') hr).reachable hi, hf⟩

end StepFi.Lib

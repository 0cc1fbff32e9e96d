import Mathlib.Logic.Basic

/-! Fallible computations in `Except`: one inversion rule for a bind, one for a
guard. A program written as a chain of guards and fallible calls is opened by
`simp only` with these rules, and no proof unfolds the monad. -/
namespace StepFi.Lib

universe u v

variable {ε : Type u} {α β : Type v}

/-- Fail with `e` unless `p` holds. -/
def ensure (p : Prop) [Decidable p] (e : ε) : Except ε Unit :=
  if p then .ok () else .error e

/-- The value of an optional read, or the failure `e`. -/
def demand (x : Option α) (e : ε) : Except ε α :=
  match x with
  | some a => .ok a
  | none => .error e

theorem bind_ok {x : Except ε α} {f : α → Except ε β} {b : β} :
    (x >>= f) = .ok b ↔ ∃ a, x = .ok a ∧ f a = .ok b := by
  cases x with
  | error e => simp [Bind.bind, Except.bind]
  | ok a => simp [Bind.bind, Except.bind]

theorem ok_bind {a : α} {f : α → Except ε β} : (Except.ok a >>= f) = f a := by
  simp only [Bind.bind, Except.bind]

theorem pure_ok {a b : α} : (pure a : Except ε α) = .ok b ↔ a = b := by
  simp [Pure.pure, Except.pure]

theorem map_ok {x : Except ε α} {f : α → β} {b : β} :
    x.map f = .ok b ↔ ∃ a, x = .ok a ∧ f a = b := by
  cases x with
  | error e => simp [Except.map]
  | ok a => simp [Except.map]

/-- An outcome seen through `f`. -/
theorem toOption_map_some {γ : Type*} {x : Except ε α} {f : α → γ} {b : γ} :
    x.toOption.map f = some b ↔ ∃ a, x = .ok a ∧ f a = b := by
  cases x with
  | error e => simp [Except.toOption]
  | ok a => simp [Except.toOption]

@[simp] theorem ensure_ok {p : Prop} [Decidable p] {e : ε} {u : Unit} :
    ensure p e = .ok u ↔ p := by
  by_cases hp : p <;> simp [ensure, hp]

@[simp] theorem demand_ok {x : Option α} {e : ε} {a : α} :
    demand x e = .ok a ↔ x = some a := by
  cases x <;> simp [demand]

/-- A guard may be written in any way. -/
theorem ensure_congr {p q : Prop} [Decidable p] [Decidable q] {e : ε} (h : p ↔ q) :
    ensure p e = ensure q e := by
  by_cases hp : p
  · simp [ensure, hp, h.mp hp]
  · simp [ensure, hp, mt h.mpr hp]

/-! ## Computations on two states that a map relates -/

section Commute

variable {α' β' : Type v} {x : Except ε α} {g : α → α'} {k : β → β'}
variable {f : α → Except ε β} {f' : α' → Except ε β'}

theorem map_bind_map (h : ∀ a, f' (g a) = (f a).map k) : (x.map g >>= f') = (x >>= f).map k := by
  cases x with
  | error e => rfl
  | ok a => exact h a

theorem map_bind_of_eq {x' : Except ε α'} (hx : x' = x.map g) (h : ∀ a, f' (g a) = (f a).map k) :
    (x' >>= f') = (x >>= f).map k := hx ▸ map_bind_map h

theorem bind_map {f' : α → Except ε β'} (h : ∀ a, f' a = (f a).map k) :
    (x >>= f') = (x >>= f).map k := by
  cases x with
  | error e => rfl
  | ok a => exact h a

theorem bind_map_ok {f : α → Except ε β} {f' : α → Except ε β'}
    (h : ∀ a, x = .ok a → f' a = (f a).map k) : (x >>= f') = (x >>= f).map k := by
  cases x with
  | error e => rfl
  | ok a => exact h a rfl

/-- Computations that agree through `k` after the same first step agree through `k`. -/
theorem bind_congr_map {γ : Type*} {f f' : α → Except ε β} {k : β → γ}
    (h : ∀ a, (f' a).map k = (f a).map k) : (x >>= f').map k = (x >>= f).map k := by
  cases x with
  | error e => rfl
  | ok a => exact h a

theorem map_bind_congr {γ : Type*} {f : α → Except ε β} {f' : α' → Except ε β} {k : β → γ}
    {x' : Except ε α'} (hx : x' = x.map g) (h : ∀ a, (f' (g a)).map k = (f a).map k) :
    (x' >>= f').map k = (x >>= f).map k := by
  subst hx
  cases x with
  | error e => rfl
  | ok a => exact h a

theorem bind_congr_through {γ δ : Type*} {f f' : α → Except ε β} {g : α → δ} {k : β → γ}
    {x' : Except ε α} (hx : x'.map g = x.map g)
    (h : ∀ a a', g a' = g a → (f' a').map k = (f a).map k) :
    (x' >>= f').map k = (x >>= f).map k := by
  cases x with
  | error e =>
    cases x' with
    | error e' => exact congrArg Except.error (Except.error.inj hx)
    | ok a' => cases hx
  | ok a =>
    cases x' with
    | error e' => cases hx
    | ok a' => exact h a a' (Except.ok.inj hx)

theorem map_bind {f : α' → Except ε β} : (x.map g >>= f) = x >>= fun a => f (g a) := by
  cases x <;> rfl

theorem bind_congr_ok {f' : α → Except ε β} (h : ∀ a, x = .ok a → f' a = f a) :
    (x >>= f') = (x >>= f) := by
  cases x with
  | error e => rfl
  | ok a => exact h a rfl

end Commute

/-! ## Which failure -/

theorem bind_error {x : Except ε α} {f : α → Except ε β} {e : ε} :
    (x >>= f) = .error e ↔ x = .error e ∨ ∃ a, x = .ok a ∧ f a = .error e := by
  cases x with
  | error e' => simp [Bind.bind, Except.bind]
  | ok a => simp [Bind.bind, Except.bind]

theorem pure_error {a : α} {e : ε} : (pure a : Except ε α) = .error e ↔ False := by
  simp [Pure.pure, Except.pure]

theorem map_error {x : Except ε α} {f : α → β} {e : ε} :
    x.map f = .error e ↔ x = .error e := by
  cases x with
  | error e' => simp [Except.map]
  | ok a => simp [Except.map]

theorem ensure_error {p : Prop} [Decidable p] {e e' : ε} :
    ensure p e = .error e' ↔ ¬p ∧ e = e' := by
  by_cases hp : p <;> simp [ensure, hp]

theorem demand_error {x : Option α} {e e' : ε} :
    demand x e = .error e' ↔ x = none ∧ e = e' := by
  cases x <;> simp [demand]

/-- Every failure of `x` is in `E`. -/
def FailsIn (E : ε → Prop) (x : Except ε α) : Prop := ∀ e, x = .error e → E e

section FailsIn

variable {E : ε → Prop} {x : Except ε α} {f : α → Except ε β}

theorem FailsIn.ok (a : α) : FailsIn E (.ok a) := by
  intro e h
  cases h

theorem FailsIn.bind (hx : FailsIn E x) (hf : ∀ a, FailsIn E (f a)) : FailsIn E (x >>= f) := by
  intro e h
  rcases bind_error.mp h with h | ⟨a, -, h⟩
  · exact hx e h
  · exact hf a e h

theorem FailsIn.ensure {p : Prop} [Decidable p] {e : ε} (he : E e) : FailsIn E (ensure p e) := by
  intro e' h
  obtain ⟨-, rfl⟩ := ensure_error.mp h
  exact he

theorem FailsIn.demand {x : Option α} {e : ε} (he : E e) : FailsIn E (demand x e) := by
  intro e' h
  obtain ⟨-, rfl⟩ := demand_error.mp h
  exact he

end FailsIn

end StepFi.Lib

import StepFi.Host
import Mathlib.Data.List.Perm.Basic

/-! How a struct travels between contracts: as a map from the names of its
fields to their values. The host unpacks the map for the contract that asked. It
ends that contract's call unless the names are exactly the type's own, so there
is no error to fall back from. -/
namespace StepFi

inductive Value where
  | u32 (n : Nat)
  | u64 (n : Nat)
  | i128 (x : Int)
  deriving DecidableEq, Repr

/-- An encoded struct, in any order of its fields. -/
abbrev Fields := List (String × Value)

/-- The names present are `names`, each once. -/
def Fields.Exactly (r : Fields) (names : List String) : Prop := (r.map Prod.fst).Perm names

instance (r : Fields) (names : List String) : Decidable (r.Exactly names) :=
  inferInstanceAs (Decidable (List.Perm _ _))

def Fields.u32 (r : Fields) (name : String) : Option Nat :=
  match r.lookup name with
  | some (.u32 n) => some n
  | _ => none

def Fields.u64 (r : Fields) (name : String) : Option Nat :=
  match r.lookup name with
  | some (.u64 n) => some n
  | _ => none

def Fields.i128 (r : Fields) (name : String) : Option Int :=
  match r.lookup name with
  | some (.i128 x) => some x
  | _ => none

/-- What `try_invoke_contract` comes back with: the callee's answer, `none` when the
callee fails or a field has another type, or the host's failure, which the caller
cannot catch. -/
abbrev Reply (α : Type) := Except Failure (Option α)

/-- The answer, where there is one. -/
def Reply.answer {α : Type} (r : Reply α) : Option α := r.toOption.bind id

/-- Unpacking an encoded struct into a type with the fields `names`, `read` being
the conversion of the values. -/
def Fields.unpack {α : Type} (r : Fields) (names : List String) (read : Option α) : Reply α :=
  if r.Exactly names then .ok read else .error .host

/-- A struct with a field more or less than the type does not unpack. -/
theorem Fields.not_exactly {r : Fields} {names : List String} (h : r.length ≠ names.length) :
    ¬r.Exactly names := by
  intro hperm
  have hlen := hperm.length_eq
  rw [List.length_map] at hlen
  exact h hlen

theorem Fields.unpack_fails {α : Type} {r : Fields} {names : List String} {read : Option α}
    (h : r.length ≠ names.length) : r.unpack names read = .error .host :=
  if_neg (Fields.not_exactly h)

end StepFi

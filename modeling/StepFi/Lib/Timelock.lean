import StepFi.Lib.Transition

/-!
# A timelocked slot

A system with one slot for a pending ticket: issuing fills it with a key and the
time it opens, overwriting what was there, and redeeming empties it. `Timelock`
is what a labelled transition system shows of such a slot, `Timelock.Kept` what
its single steps do, and `Kept.respected` what follows for the history of a run:
every redemption is of the latest issue before it, not redeemed since, and comes
no earlier than that issue allowed.
-/

namespace StepFi.Lib

universe u v w

variable {S : Type u} {L : Type v} {K : Type w}

structure Timelock (S : Type u) (L : Type v) (K : Type w) where
  /-- The key in the slot and the time it opens. -/
  pending : S → Option (K × Nat)
  /-- The redemptions so far. -/
  count : S → Nat
  /-- The key a label issues a ticket for. -/
  issues : L → Option K
  /-- The key a label redeems. -/
  redeems : L → Option K
  authorised : S → L → Prop
  /-- The delay an issue reads. -/
  delay : S → L → Nat
  now : L → Nat

namespace Timelock

variable (T : Timelock S L K)

/-- The slot's steps: an issue is authorised and opens after a positive delay, a
redemption finds its key open, and nothing else touches the slot. -/
structure Kept (R : S → L → S → Prop) : Prop where
  issue : ∀ {s l s' k}, R s l s' → T.issues l = some k →
    T.redeems l = none ∧ T.authorised s l ∧ 0 < T.delay s l ∧
      T.pending s' = some (k, T.now l + T.delay s l) ∧ T.count s' = T.count s
  redeem : ∀ {s l s' k}, R s l s' → T.redeems l = some k →
    ∃ opens, T.pending s = some (k, opens) ∧ opens ≤ T.now l ∧
      T.pending s' = none ∧ T.count s' = T.count s + 1
  frame : ∀ {s l s'}, R s l s' → T.issues l = none → T.redeems l = none →
    T.pending s' = T.pending s ∧ T.count s' = T.count s

/-- Steps that neither issue nor redeem. -/
def Quiet (tr : List (S × L)) : Prop := ∀ x ∈ tr, T.issues x.2 = none ∧ T.redeems x.2 = none

/-- The last issue in the record is an authorised one, for `k`, that opens at
`opens`, a positive delay later; nothing was redeemed since. -/
def Issued (tr : List (S × L)) (k : K) (opens : Nat) : Prop :=
  ∃ pre s l mid, tr = pre ++ (s, l) :: mid ∧ T.issues l = some k ∧ T.authorised s l ∧
    0 < T.delay s l ∧ opens = T.now l + T.delay s l ∧ T.Quiet mid

/-- How often a record redeems. -/
def redeemed (tr : List (S × L)) : Nat := tr.countP fun x => (T.redeems x.2).isSome

/-- The history of a run that started with `start` redemptions, and leads to `t`. -/
structure Respected (start : Nat) (tr : List (S × L)) (t : S) : Prop where
  backed : ∀ {pre s l post k}, tr = pre ++ (s, l) :: post → T.redeems l = some k →
    ∃ opens, T.Issued pre k opens ∧ opens ≤ T.now l
  once : ∀ {pre mid post}, tr = pre ++ mid ++ post → (∀ x ∈ mid, T.issues x.2 = none) →
    T.redeemed mid ≤ 1
  counted : T.count t = start + T.redeemed tr

variable {T} {R : S → L → S → Prop} {s t : S} {l : L} {tr : List (S × L)} {k : K} {opens : Nat}

theorem Quiet.snoc (h : T.Quiet tr) (hi : T.issues l = none) (hr : T.redeems l = none) :
    T.Quiet (tr ++ [(t, l)]) :=
  List.forall_mem_append.mpr ⟨h, List.forall_mem_singleton.mpr ⟨hi, hr⟩⟩

theorem Issued.snoc (h : T.Issued tr k opens) (hi : T.issues l = none) (hr : T.redeems l = none) :
    T.Issued (tr ++ [(t, l)]) k opens := by
  obtain ⟨pre, s, l₀, mid, rfl, hk, hauth, hdelay, hopens, hquiet⟩ := h
  exact ⟨pre, s, l₀, mid ++ [(t, l)], by simp, hk, hauth, hdelay, hopens, hquiet.snoc hi hr⟩

namespace Kept

variable (hT : T.Kept R)
include hT

/-- A pending ticket is the one issued last. -/
theorem issued (h : Run R s tr t) (h0 : T.pending s = none) :
    ∀ k opens, T.pending t = some (k, opens) → T.Issued tr k opens := by
  induction h with
  | nil =>
    intro k opens hp
    simp [h0] at hp
  | @snoc tr t u l hr hs ih =>
    intro k opens hp
    cases hi : T.issues l with
    | some k₀ =>
      obtain ⟨-, hauth, hdelay, hpending, -⟩ := hT.issue hs hi
      obtain ⟨rfl, rfl⟩ := Prod.mk.injEq .. ▸ Option.some.inj (hpending.symm.trans hp)
      exact ⟨tr, t, l, [], rfl, hi, hauth, hdelay, rfl, by simp [Quiet]⟩
    | none =>
      cases hr' : T.redeems l with
      | some k₀ =>
        obtain ⟨_, -, -, hnone, -⟩ := hT.redeem hs hr'
        simp [hnone] at hp
      | none =>
        rw [(hT.frame hs hi hr').1] at hp
        exact (ih k opens hp).snoc hi hr'

theorem counted (h : Run R s tr t) : T.count t = T.count s + T.redeemed tr := by
  induction h with
  | nil => rfl
  | @snoc tr t u l hr hs ih =>
    rw [redeemed, List.countP_append, List.countP_singleton, ← Nat.add_assoc]
    change _ = T.count s + T.redeemed tr + _
    rw [← ih]
    cases hr' : T.redeems l with
    | some k₀ =>
      obtain ⟨_, -, -, -, hcount⟩ := hT.redeem hs hr'
      simpa using hcount
    | none =>
      cases hi : T.issues l with
      | some k₀ => simpa using (hT.issue hs hi).2.2.2.2
      | none => simpa using (hT.frame hs hi hr').2

/-- Between two issues there is at most one redemption: it empties the slot. -/
theorem redeemed_le_one (h : Run R s tr t) (hquiet : ∀ x ∈ tr, T.issues x.2 = none) :
    T.redeemed tr ≤ 1 := by
  have hrun : Run (fun s l s' => R s l s' ∧ T.issues l = none) s tr t :=
    h.restrict (I := fun _ => True) trivial fun s l s' _ hmem hs => ⟨hs, hquiet (s, l) hmem⟩
  refine hrun.countP_le_one (P := fun _ => True) (E := fun l => (T.redeems l).isSome)
    (Q := fun s => T.pending s = none) trivial (fun _ _ _ _ _ => trivial) ?_ ?_
  · intro s l s' _ hs he
    obtain ⟨k, hk⟩ := Option.isSome_iff_exists.mp he
    obtain ⟨_, -, -, hnone, -⟩ := hT.redeem hs.1 hk
    exact hnone
  · intro s l s' _ hs hnone
    cases hr : T.redeems l with
    | some k =>
      obtain ⟨_, hsome, -⟩ := hT.redeem hs.1 hr
      simp [hnone] at hsome
    | none => exact ⟨(hT.frame hs.1 hs.2 hr).1.trans hnone, rfl⟩

theorem respected (h : Run R s tr t) (h0 : T.pending s = none) :
    T.Respected (T.count s) tr t where
  backed := by
    rintro pre u l post k rfl hk
    obtain ⟨hrun, _, hs⟩ := h.step_at
    obtain ⟨opens, hpending, hle, -⟩ := hT.redeem hs hk
    exact ⟨opens, hT.issued hrun h0 k opens hpending, hle⟩
  once := by
    rintro pre mid post rfl hquiet
    obtain ⟨u, hrun, -⟩ := h.split
    obtain ⟨v, -, hmid⟩ := hrun.split
    exact hT.redeemed_le_one hmid hquiet
  counted := hT.counted h

end Kept

end Timelock

end StepFi.Lib

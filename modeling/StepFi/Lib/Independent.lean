import StepFi.Lib.Transition
import Mathlib.Data.List.Nodup

/-!
# Steps whose order does not matter

Labels that act on the view of a state through what they post: no step changes
what a label with another key posts, and what labels with different keys post
commutes. Then the view a run ends with depends on the labels of the run and not on
their order.
-/

namespace StepFi.Lib

variable {S L K V A : Type*} {R : S → L → S → Prop} {I : S → Prop} {P : L → Prop}
variable {key : L → K} {view : S → V} {post : S → L → A} {act : V → A → V}
variable {s t t' : S} {tr tr' : List (S × L)}

structure Independent (I : S → Prop) (R : S → L → S → Prop) (P : L → Prop) (key : L → K)
    (view : S → V) (post : S → L → A) (act : V → A → V) : Prop where
  acts : ∀ s l s', Reachable I R s → P l → R s l s' → view s' = act (view s) (post s l)
  keeps : ∀ s l s' m, Reachable I R s → P l → R s l s' → key m ≠ key l → post s' m = post s m
  commutes : ∀ s l m v, Reachable I R s → key l ≠ key m →
    act (act v (post s l)) (post s m) = act (act v (post s m)) (post s l)

/-- The labels of a run, each on its own key, and all such that the rules apply. -/
structure Apart (P : L → Prop) (key : L → K) (ls : List L) : Prop where
  all : ∀ l ∈ ls, P l
  keys : (ls.map key).Nodup

instance [DecidablePred P] [DecidableEq K] (ls : List L) : Decidable (Apart P key ls) :=
  decidable_of_iff ((∀ l ∈ ls, P l) ∧ (ls.map key).Nodup)
    ⟨fun h => ⟨h.1, h.2⟩, fun h => ⟨h.all, h.keys⟩⟩

theorem Apart.perm {ls ls' : List L} (h : Apart P key ls) (hperm : ls.Perm ls') :
    Apart P key ls' where
  all := fun l hl => h.all l (hperm.mem_iff.mpr hl)
  keys := (hperm.map key).nodup_iff.mp h.keys

/-- A label comes after labels with other keys. -/
theorem Apart.snoc {ls : List L} {l : L} (h : Apart P key (ls ++ [l])) :
    Apart P key ls ∧ P l ∧ ∀ m ∈ ls, key l ≠ key m := by
  obtain ⟨hall, hkeys⟩ := h
  rw [List.map_append, List.nodup_append] at hkeys
  obtain ⟨hkeys, -, hnew⟩ := hkeys
  refine ⟨⟨fun m hm => hall m (List.mem_append_left _ hm), hkeys⟩, ?_, ?_⟩
  · exact hall l (List.mem_append_right _ (List.mem_singleton_self l))
  · intro m hm heq
    exact hnew _ (List.mem_map_of_mem hm) _ (List.mem_singleton_self _) heq.symm

/-- A run of labels with different keys acts by what they posted at its start. -/
theorem Independent.run (hi : Independent I R P key view post act) (hs : Reachable I R s)
    (h : Run R s tr t) (hapart : Apart P key (tr.map Prod.snd)) :
    view t = (tr.map Prod.snd).foldl (fun v l => act v (post s l)) (view s) ∧
      ∀ m, (∀ l ∈ tr.map Prod.snd, key m ≠ key l) → post t m = post s m := by
  induction h with
  | nil => exact ⟨rfl, fun _ _ => rfl⟩
  | @snoc tr t u l hr hl ih =>
    obtain ⟨s₀, tr₀, h0, h₀⟩ := hs
    have ht : Reachable I R t := (h₀.append hr).reachable h0
    have hlabels : (tr ++ [(t, l)]).map Prod.snd = tr.map Prod.snd ++ [l] := List.map_append
    rw [hlabels] at hapart ⊢
    obtain ⟨hbefore, hPl, hnew⟩ := hapart.snoc
    obtain ⟨hview, hpost⟩ := ih hbefore
    constructor
    · rw [hi.acts t l u ht hPl hl, hview, hpost l hnew, List.foldl_append]
      rfl
    · intro m hm
      obtain ⟨hmtr, hml⟩ := List.forall_mem_append.mp hm
      rw [hi.keeps t l u m ht hPl hl (hml l (List.mem_singleton_self l))]
      exact hpost m hmtr

/-- The same labels in two orders lead to the same view. -/
theorem Independent.order_free (hi : Independent I R P key view post act) (hs : Reachable I R s)
    (h : Run R s tr t) (h' : Run R s tr' t') (hapart : Apart P key (tr.map Prod.snd))
    (hperm : (tr.map Prod.snd).Perm (tr'.map Prod.snd)) : view t = view t' := by
  rw [(hi.run hs h hapart).1, (hi.run hs h' (hapart.perm hperm)).1]
  refine hperm.foldl_eq' (fun l hl m hm v => ?_) (view s)
  by_cases heq : key l = key m
  · rw [List.inj_on_of_nodup_map hapart.keys hl hm heq]
  · exact hi.commutes s l m v hs heq

theorem replay_labels {ε : Type*} {exec : S → L → Except ε S} {ls : List L}
    (h : replay exec s ls = .ok (tr, t)) : tr.map Prod.snd = ls := by
  induction ls generalizing s tr with
  | nil =>
    obtain ⟨rfl, -⟩ := Prod.mk.injEq .. ▸ Except.ok.inj h
    rfl
  | cons l ls ih =>
    cases he : exec s l with
    | error e => simp [replay, he] at h
    | ok m =>
      simp only [replay, he] at h
      obtain ⟨⟨rest, u⟩, hr, heq⟩ := map_ok.mp h
      obtain ⟨rfl, rfl⟩ := Prod.mk.injEq .. ▸ heq
      exact congrArg (l :: ·) (ih hr)

end StepFi.Lib

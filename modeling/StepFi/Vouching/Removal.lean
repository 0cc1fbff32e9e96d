import StepFi.Vouching.Scores
import Mathlib.Algebra.BigOperators.Group.Finset.Basic

/-!
# The order of removals

A removal lowers the score by the boost, but not below the baseline. Lowering twice
is lowering once by the sum (`lowered_lowered`), so what a run of removals leaves
depends on the set of the vouches removed, and not on the order or on who removed
them (`removals_commute`). The baseline is the same for all of them: it is cleared
only when no active vouch is left.
-/

namespace StepFi.Vouching.Scores

open Lib

variable {self reputation : Address} {s t u u' : State} {l : Label} {tr : List (State × Label)}
variable {mentor learner : Address} {record : VouchRecord} {removed : List Address}

/-! ## Lowering a score to a floor -/

section Lowered

variable {baseline score x y : Nat}

/-- `score` less `x`, where the part below `baseline` stays. -/
def lowered (baseline score x : Nat) : Nat := score - min (score - baseline) x

theorem lowered_zero : lowered baseline score 0 = score := by
  simp [lowered]

theorem lowered_lowered :
    lowered baseline (lowered baseline score x) y = lowered baseline score (x + y) := by
  unfold lowered
  omega

theorem lowered_eq : lowered baseline score x =
    if score ≤ baseline then score else max baseline (score - x) := by
  unfold lowered
  split <;> omega

theorem min_le_lowered : min score baseline ≤ lowered baseline score x := by
  unfold lowered
  omega

end Lowered

/-! ## One step -/

/-- The mentor whose vouch for the learner a call removes. -/
def Label.removes (learner : Address) : Label → Option Address
  | .vouching _ (.revokeVouch mentor l) => if l = learner then some mentor else none
  | .vouching _ (.expireVouch mentor l) => if l = learner then some mentor else none
  | _ => none

/-- A step that leaves the learner's score, vouches and baseline as they are. -/
structure Quiet (learner : Address) (s s' : State) : Prop where
  score : s'.world.scores learner = s.world.scores learner
  vouches : ∀ mentor, s'.vouching.vouches mentor learner = s.vouching.vouches mentor learner
  baseline : s'.vouching.learnerBaseline learner = s.vouching.learnerBaseline learner

/-- The boost of a vouch, as recorded. -/
def boostOf (p : Storage) (learner mentor : Address) : Nat :=
  (p.vouches mentor learner).elim 0 VouchRecord.boostAmount

/-- A call that removes an active vouch takes its boost back. -/
theorem withdraws_of_removes (h : Step self reputation u l u')
    (hl : l.removes learner = some mentor)
    (hfound : u.vouching.vouches mentor learner = some record) (hactive : record.active = true) :
    ∃ env address current,
      Withdraws (clients self reputation) env learner record u u' address current := by
  cases l with
  | vouching env call =>
    cases call with
    | revokeVouch m l =>
      simp only [Label.removes, Option.ite_none_right_eq_some, Option.some.injEq] at hl
      obtain ⟨rfl, rfl⟩ := hl
      obtain ⟨-, found, hfound', -, hd⟩ := revokeVouch_ok.mp h
      obtain rfl := Option.some.inj (hfound.symm.trans hfound')
      exact ⟨env, deactivate_ok.mp hd⟩
    | expireVouch m l =>
      simp only [Label.removes, Option.ite_none_right_eq_some, Option.some.injEq] at hl
      obtain ⟨rfl, rfl⟩ := hl
      obtain ⟨found, hfound', hcase⟩ := expireVouch_ok.mp h
      obtain rfl := Option.some.inj (hfound.symm.trans hfound')
      rcases hcase with ⟨hinactive, -⟩ | ⟨-, -, hd⟩
      · rw [hactive] at hinactive
        cases hinactive
      · exact ⟨env, deactivate_ok.mp hd⟩
    | _ => cases hl
  | reputation env call => cases hl
  | boostConfigured boost => cases hl

/-! ## Runs -/

/-- Where the removal of the vouches of `removed` leads from `s`, when the learner's
baseline was `baseline` there. -/
structure Removed (learner : Address) (baseline : Nat) (s : State) (removed : List Address)
    (u : State) : Prop where
  score : u.world.scores learner = lowered baseline (s.world.scores learner)
    (removed.map (boostOf s.vouching learner)).sum
  kept : ∀ mentor, mentor ∉ removed →
    u.vouching.vouches mentor learner = s.vouching.vouches mentor learner
  baseline : ∀ b, u.vouching.learnerBaseline learner = some b → b = baseline

variable {baseline : Nat}

theorem Removed.start (h : s.vouching.learnerBaseline learner = some baseline) :
    Removed learner baseline s [] s where
  score := lowered_zero.symm
  kept := fun _ _ => rfl
  baseline := by
    intro b hb
    rw [h] at hb
    exact (Option.some.inj hb).symm

theorem Removed.quiet (h : Removed learner baseline s removed u) (hq : Quiet learner u u') :
    Removed learner baseline s removed u' where
  score := hq.score.trans h.score
  kept := fun mentor hm => (hq.vouches mentor).trans (h.kept mentor hm)
  baseline := fun b hb => h.baseline b (hq.baseline ▸ hb)

/-- One more removal: as long as a vouch is active the baseline is stored. -/
theorem Removed.remove (h : Removed learner baseline s removed u) (hs : Sound reputation u)
    (hstep : Step self reputation u l u') (hl : l.removes learner = some mentor)
    (hnew : mentor ∉ removed) (hfound : s.vouching.vouches mentor learner = some record)
    (hactive : record.active = true) :
    Removed learner baseline s (removed ++ [mentor]) u' := by
  have hfound' : u.vouching.vouches mentor learner = some record :=
    (h.kept mentor hnew).trans hfound
  obtain ⟨env, address, current, hw⟩ := withdraws_of_removes hstep hl hfound' hactive
  obtain ⟨rfl, hworld⟩ := withdraws_world hs.bounded hw
  obtain ⟨b, hb⟩ := hs.store.baseline_of_active hfound' hactive
  obtain rfl := h.baseline b hb
  obtain ⟨rfl, rfl, -⟩ := hs.store.keyed mentor learner record hfound'
  constructor
  · have hscore : u'.world.scores record.learner =
        lowered b (u.world.scores record.learner) record.boostAmount := by
      rw [hworld, Reputation.writeScore_same, Storage.removable, hb, Option.getD_some, lowered]
    have hboost : boostOf s.vouching record.learner record.mentor = record.boostAmount := by
      rw [boostOf, hfound, Option.elim_some]
    rw [hscore, h.score, lowered_lowered, List.map_append, List.sum_append, List.map_singleton,
      List.sum_singleton, hboost]
  · intro m hm
    simp only [List.mem_append, List.mem_singleton, not_or] at hm
    have hcol : u'.vouching.column record.learner m = u.vouching.column record.learner m := by
      rw [hw.withdrawn, withdrawn_column_self, Function.update_of_ne hm.2]
    exact hcol.trans (h.kept m hm.1)
  · intro a ha
    rw [hw.withdrawn, withdrawn_baseline_self] at ha
    split at ha
    · cases ha
    · exact h.baseline a ha

/-- The mentors whose vouches for the learner a run removes, in its order. -/
def removals (learner : Address) (tr : List (State × Label)) : List Address :=
  tr.filterMap fun x => x.2.removes learner

theorem removals_snoc (learner : Address) (tr : List (State × Label)) (u : State) (l : Label) :
    removals learner (tr ++ [(u, l)]) = removals learner tr ++ (l.removes learner).toList := by
  rw [removals, List.filterMap_append]
  cases hl : l.removes learner <;> simp [removals, hl]

/-- A run that removes vouches active at its start, and is quiet otherwise. -/
theorem removed_of_run (h : Reachable Deployed (Step self reputation) s)
    (hrun : Run (Step self reputation) s tr t)
    (hbaseline : s.vouching.learnerBaseline learner = some baseline)
    (hquiet : ∀ x ∈ outcomes tr t, x.2.1.removes learner = none → Quiet learner x.1 x.2.2)
    (hnodup : (removals learner tr).Nodup)
    (hactive : ∀ mentor ∈ removals learner tr, ∃ record,
      s.vouching.vouches mentor learner = some record ∧ record.active = true) :
    Removed learner baseline s (removals learner tr) t ∧
      AllStates (fun u => min (s.world.scores learner) baseline ≤ u.world.scores learner) tr t := by
  induction hrun with
  | nil => exact ⟨.start hbaseline, by simp, Nat.min_le_left ..⟩
  | @snoc tr u u' l hr hstep ih =>
    rw [outcomes_snoc, List.forall_mem_append, List.forall_mem_singleton] at hquiet
    obtain ⟨hbefore, hlast⟩ := hquiet
    rw [removals_snoc, List.forall_mem_append] at hactive
    rw [removals_snoc, List.nodup_append] at hnodup
    obtain ⟨hremoved, hstates⟩ := ih hbefore hnodup.1 hactive.1
    have hnext : Removed learner baseline s (removals learner (tr ++ [(u, l)])) u' := by
      rw [removals_snoc]
      cases hl : l.removes learner with
      | none =>
        rw [Option.toList_none, List.append_nil]
        exact hremoved.quiet (hlast hl)
      | some mentor =>
        have hmem : mentor ∈ (l.removes learner).toList := by simp [hl]
        obtain ⟨record, hfound, hrecord⟩ := hactive.2 mentor hmem
        have hnew : mentor ∉ removals learner tr := fun hold =>
          hnodup.2.2 mentor hold mentor hmem rfl
        obtain ⟨s₀, tr₀, hi, h₀⟩ := h
        have hs := sound_of_reachable ((h₀.append hr).reachable hi)
        exact hremoved.remove hs hstep hl hnew hfound hrecord
    refine ⟨hnext, allStates_snoc.mpr ⟨hstates, ?_⟩⟩
    rw [hnext.score]
    exact min_le_lowered

/-- From every reachable state, in every run that removes the active vouches of
`mentors` for a learner, in any order, by revoking or expiring them, and leaves the
learner's score and vouches alone in between: the final score depends on the set
only, and no state of the run has the learner below both the first score and the
baseline. -/
theorem removals_commute (h : Reachable Deployed (Step self reputation) s)
    (hbaseline : s.vouching.learnerBaseline learner = some baseline) (mentors : Finset Address)
    (hactive : ∀ mentor ∈ mentors, ∃ record,
      s.vouching.vouches mentor learner = some record ∧ record.active = true)
    (hrun : Run (Step self reputation) s tr t)
    (hquiet : ∀ x ∈ outcomes tr t, x.2.1.removes learner = none → Quiet learner x.1 x.2.2)
    (hnodup : (removals learner tr).Nodup) (hset : (removals learner tr).toFinset = mentors) :
    t.world.scores learner =
      (if s.world.scores learner ≤ baseline then s.world.scores learner
        else max baseline
          (s.world.scores learner - ∑ mentor ∈ mentors, boostOf s.vouching learner mentor)) ∧
    AllStates (fun u => min (s.world.scores learner) baseline ≤ u.world.scores learner) tr t := by
  subst hset
  obtain ⟨hremoved, hstates⟩ := removed_of_run h hrun hbaseline hquiet hnodup
    fun mentor hm => hactive mentor (List.mem_toFinset.mpr hm)
  refine ⟨?_, hstates⟩
  rw [hremoved.score, lowered_eq, List.sum_toFinset _ hnodup]

/-- Mentors `21` and `22` lend `10` and `15` to learner `30`, who scored `50` before
and is then penalised by `12`. -/
def penaltyLabels : List Label :=
  [.reputation (Env.signedBy [10] 50) (.initializeContract 10),
    .reputation (Env.signedBy [10] 50) (.setUpdater 10 7 true),
    .reputation (Env.signedBy [10] 50) (.setUpdater 10 8 true),
    .vouching (Env.signedBy [10] 50) (.initializeContract 10 3 10),
    .vouching (Env.signedBy [10] 60) (.setMentor 10 21 true),
    .vouching (Env.signedBy [10] 60) (.setMentor 10 22 true),
    .reputation (Env.signedBy [8] 70) (.increaseScore 8 30 50),
    .vouching (Env.signedBy [21] 100) (.vouch 21 30),
    .boostConfigured 15,
    .vouching (Env.signedBy [22] 110) (.vouch 22 30),
    .reputation (Env.signedBy [8] 120) (.decreaseScore 8 30 12)]

def removalLabels : List Label :=
  [.vouching (Env.signedBy [] 2592111) (.expireVouch 22 30),
    .vouching (Env.signedBy [21] 2592120) (.revokeVouch 21 30)]

/-- Of the score of `63` the two removals take `13`: it ends at the baseline. -/
theorem removals_commute_sample : ∃ s t : State, s.world.scores 30 = 63 ∧
    (∃ tr, Run (Step 7 3) s tr t ∧ removals 30 tr = [22, 21]) ∧ t.world.scores 30 = 50 := by
  have hrun : (replay (take 7 3) sampleStart penaltyLabels).toOption.map (fun r =>
      ((replay (take 7 3) r.2 removalLabels).toOption.map fun x =>
          (removals 30 x.1, (outcomes x.1 x.2).all fun y => (y.2.1.removes 30).isSome),
        r.2.world.scores 30, r.2.vouching.learnerBaseline 30,
        [21, 22].map (r.2.vouching.vouches · 30))) = some (some ([22, 21], true), 63, some 50,
          [some ⟨21, 30, 100, 10, true⟩, some ⟨22, 30, 110, 15, true⟩]) := by decide +kernel
  obtain ⟨_, s, hreach, hs⟩ :=
    Reachable.of_replay (I := Deployed) (R := Step 7 3) hrun ⟨rfl, rfl⟩ fun _ _ _ h => h
  simp only [Prod.mk.injEq, List.map_cons, List.cons.injEq] at hs
  obtain ⟨hremove, hscore, hbaseline, hfirst, hsecond, -⟩ := hs
  obtain ⟨tr, t, hreplay, ht⟩ := replay_observed hremove
  obtain ⟨horder, hall⟩ := Prod.mk.injEq .. ▸ ht
  have htr : Run (Step 7 3) s tr t := Run.of_replay (fun _ _ _ _ h => h) hreplay
  have hactive : ∀ mentor ∈ ({21, 22} : Finset Address), ∃ record,
      s.vouching.vouches mentor 30 = some record ∧ record.active = true := by
    intro mentor hm
    rcases Finset.mem_insert.mp hm with rfl | hm
    · exact ⟨_, hfirst, rfl⟩
    · obtain rfl := Finset.mem_singleton.mp hm
      exact ⟨_, hsecond, rfl⟩
  have hquiet : ∀ x ∈ outcomes tr t, x.2.1.removes 30 = none → Quiet 30 x.1 x.2.2 := by
    intro x hx hnone
    have hsome := List.all_eq_true.mp hall x hx
    rw [hnone] at hsome
    cases hsome
  obtain ⟨hfinal, -⟩ := removals_commute hreach hbaseline {21, 22} hactive htr hquiet
    (by rw [horder]; decide) (by rw [horder]; decide)
  refine ⟨s, t, hscore, ⟨tr, htr, horder⟩, ?_⟩
  rw [hfinal, hscore]
  simp [boostOf, hfirst, hsecond]

end StepFi.Vouching.Scores

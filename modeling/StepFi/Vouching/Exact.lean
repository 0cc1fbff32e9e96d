import StepFi.Vouching.Scores

/-!
# Removal is exact

The vouch-free score of a learner is what the updates of others alone make of
the score at the start: a quantity carried beside the run, and the score a run
of the reputation contract without any vouches ends with. As long as it stays at
or above the baseline, the clamp never bites, and the learner's score is the
vouch-free one plus the active boosts.
-/

namespace StepFi.Vouching.Scores

open Lib

variable {self reputation address : Address} {env : Env} {s s' : State}
variable {mentor learner : Address} {record : VouchRecord} {current : Nat}
variable {x y : State × Int} {l : Label}

/-- By how much an update of others moves the learner's score. -/
def external (learner : Address) : Label → Int
  | .reputation _ call => if call.scored = some learner then call.shift else 0
  | .vouching _ _ => 0
  | .boostConfigured _ => 0

/-- The learner's score is set, not moved. -/
def Label.overwrites (learner : Address) : Label → Bool
  | .reputation _ (.setScore _ user _) => user = learner
  | _ => false

/-- The vouch-free score is at or above the baseline, if there is one. -/
def Above (learner : Address) (x : State × Int) : Prop :=
  ∀ baseline, x.1.vouching.learnerBaseline learner = some baseline → (baseline : Int) ≤ x.2

instance (learner : Address) (x : State × Int) : Decidable (Above learner x) :=
  decidable_of_iff (∀ baseline ∈ x.1.vouching.learnerBaseline learner, (baseline : Int) ≤ x.2)
    (by simp [Above])

structure Exact (reputation learner : Address) (x : State × Int) : Prop where
  sound : Sound reputation x.1
  score : (x.1.world.scores learner : Int) = x.2 + x.1.vouching.learnerTotalBoost learner

/-- A call by an updater moves both scores alike. -/
theorem score_reputation {call : Reputation.Call} {w w' : Reputation.Storage} (hb : w.Bounded)
    (h : Reputation.exec env call w = .ok w')
    (hset : (Label.reputation env call).overwrites learner = false) :
    (w'.scores learner : Int) = w.scores learner + external learner (.reputation env call) := by
  by_cases hcall : call.scored = some learner
  · simp only [external, hcall, if_true]
    cases call with
    | increaseScore updater user amount =>
      obtain rfl := Option.some.inj hcall
      obtain ⟨-, -, -, -, rfl⟩ := Reputation.raise_ok.mp h
      simp [Reputation.Call.shift]
    | addBoost updater user amount =>
      obtain rfl := Option.some.inj hcall
      obtain ⟨-, -, -, -, rfl⟩ := Reputation.raise_ok.mp h
      simp [Reputation.Call.shift]
    | decreaseScore updater user amount =>
      obtain rfl := Option.some.inj hcall
      obtain ⟨-, -, -, hle, rfl⟩ := (Reputation.lower_ok (hb.score_lt _)).mp h
      simp only [Reputation.writeScore_same, Reputation.Call.shift]
      omega
    | removeBoost updater user amount =>
      obtain rfl := Option.some.inj hcall
      obtain ⟨-, -, -, hle, rfl⟩ := (Reputation.lower_ok (hb.score_lt _)).mp h
      simp only [Reputation.writeScore_same, Reputation.Call.shift]
      omega
    | setScore updater user score =>
      obtain rfl := Option.some.inj hcall
      simp [Label.overwrites] at hset
    | _ => simp [Reputation.Call.scored] at hcall
  · rw [Reputation.exec_scores_of_ne hb h hcall]
    simp [external, hcall]

/-- While the vouch-free score is at or above the baseline, a removal takes the
whole boost. -/
theorem removable_eq (he : Exact reputation learner x) (ha : Above learner x)
    (hfound : x.1.vouching.vouches mentor learner = some record)
    (hactive : record.active = true) :
    x.1.vouching.removable learner record (x.1.world.scores learner) = record.boostAmount := by
  have hle := (he.sound.store.agrees learner).boost_le hfound hactive
  obtain ⟨baseline, hbase⟩ := he.sound.store.baseline_of_active hfound hactive
  have hstay := ha baseline hbase
  have hscore := he.score
  unfold Storage.removable
  rw [hbase, Option.getD_some]
  omega

/-- A vouching call moves the score and the total together. -/
theorem score_vouching {call : Call} {v : Int} (he : Exact reputation learner (s, v))
    (ha : Above learner (s, v)) (h : Effect (clients self reputation) env s call s') :
    (s'.world.scores learner : Int) = v + s'.vouching.learnerTotalBoost learner := by
  have hscore : (s.world.scores learner : Int) = v + s.vouching.learnerTotalBoost learner :=
    he.score
  cases h with
  | initialized => exact hscore
  | mentorSet => exact hscore
  | upgraded => exact hscore
  | settled => exact hscore
  | @vouched m target a boost baseline _ h =>
    obtain ⟨-, -, hworld⟩ := lends_world h
    rw [hworld, h.lent]
    by_cases hl : learner = target
    · subst hl
      simp only [Reputation.writeScore_same, Storage.lent, Function.update_self]
      omega
    · simpa only [Reputation.writeScore_of_ne hl, Storage.lent, Function.update_of_ne hl]
        using hscore
  | @removed m target record a current _ _ hcall hfound hactive h =>
    obtain ⟨rfl, hworld⟩ := withdraws_world he.sound.bounded h
    rw [hworld, h.withdrawn]
    by_cases hl : learner = target
    · subst hl
      have hremovable : s.vouching.removable learner record (s.world.scores learner) =
        record.boostAmount := removable_eq he ha hfound hactive
      have hle : record.boostAmount ≤ s.vouching.learnerTotalBoost learner :=
        (he.sound.store.agrees learner).boost_le hfound hactive
      have hcovers := s.vouching.removable_le learner record (s.world.scores learner)
      rw [hremovable] at hcovers
      simp only [Reputation.writeScore_same, withdrawn_total_self, hremovable]
      omega
    · simpa only [Reputation.writeScore_of_ne hl, Storage.withdrawn, Function.update_of_ne hl]
        using hscore

theorem Exact.step (he : Exact reputation learner x) (ha : Above learner x)
    (hset : l.overwrites learner = false)
    (h : Tracked (Step self reputation) (external learner) x l y) :
    Exact reputation learner y := by
  obtain ⟨s, v⟩ := x
  obtain ⟨s', v'⟩ := y
  obtain ⟨hs, hv⟩ := h
  refine ⟨hs.sound he.sound, ?_⟩
  dsimp only at hs hv
  subst hv
  cases l with
  | vouching env call =>
    simpa [external] using score_vouching he ha (exec_effect hs)
  | reputation env call =>
    simp only [Step, take, bind_ok, pure_ok] at hs
    obtain ⟨w, hw, rfl⟩ := hs
    have hshift := score_reputation he.sound.bounded hw hset
    have hscore := he.score
    dsimp only at hshift hscore ⊢
    omega
  | boostConfigured boost =>
    simp only [Step, take, bind_ok, pure_ok, ensure_ok, exists_const] at hs
    obtain ⟨-, rfl⟩ := hs
    simpa [external] using he.score

theorem exact_of_run {tr : List ((State × Int) × Label)} (h0 : Exact reputation learner x)
    (h : Run (Tracked (Step self reputation) (external learner)) x tr y)
    (hset : ∀ e ∈ tr, e.2.overwrites learner = false) (ha : AllStates (Above learner) tr y) :
    AllStates (Exact reputation learner) tr y := by
  refine h.states_of_steps (I := fun _ => True)
    (C := fun x l => Above learner x ∧ l.overwrites learner = false) trivial h0 ?_ ?_
  · intro x l y _ he hC hs
    exact he.step hC.1 hC.2 hs
  · intro e hmem
    exact ⟨ha.1 e hmem, hset e hmem⟩

/-! ## The same updates without the vouches -/

/-- The part of a label that a run without vouches takes: the administration of
the reputation contract, and the updates of the learner's score. -/
def Label.alone (learner : Address) : Label → Option Reputation.Label
  | .reputation env call =>
    if call.scored = none ∨ call.scored = some learner then some ⟨env, call⟩ else none
  | .vouching _ _ => none
  | .boostConfigured _ => none

/-- The reputation contract of a run without vouches, beside a state of the run
with them: the two differ in scores only. -/
def Shadow (learner : Address) (x : State × Int) (w : Reputation.Storage) : Prop :=
  ∃ scores : Address → Nat,
    w = { x.1.world with scores := scores } ∧ (scores learner : Int) = x.2

/-- The vouch-free score is within the bounds of a score. -/
theorem Exact.bounds (he : Exact reputation learner x) (ha : Above learner x) :
    0 ≤ x.2 ∧ x.2 ≤ Reputation.maxScore := by
  have hscore := he.score
  have hle := he.sound.bounded.scores_le learner
  constructor
  · by_cases hzero : x.1.vouching.learnerTotalBoost learner = 0
    · omega
    · have hsome := (he.sound.store.agrees learner).baseline.mpr (Nat.pos_of_ne_zero hzero)
      obtain ⟨baseline, hbase⟩ := Option.isSome_iff_exists.mp hsome
      have := ha baseline hbase
      omega
  · omega

theorem shadow_vouching {call : Call} {v : Int} {w : Reputation.Storage}
    (hb : s.world.Bounded) (hw : Shadow learner (s, v) w)
    (h : Effect (clients self reputation) env s call s') : Shadow learner (s', v) w := by
  obtain ⟨scores, rfl, hscore⟩ := hw
  refine ⟨scores, ?_, hscore⟩
  cases h with
  | initialized => rfl
  | mentorSet => rfl
  | upgraded => rfl
  | settled => rfl
  | vouched h =>
    obtain ⟨-, -, hworld⟩ := lends_world h
    rw [hworld]
    rfl
  | removed hcall hfound hactive h =>
    obtain ⟨-, hworld⟩ := withdraws_world hb h
    rw [hworld]
    rfl

section Updates

variable {scores : Address → Nat} {v : Int} {updater : Address} {amount : Nat}
variable {w w' : Reputation.Storage}

theorem shadow_raise (hscore : (scores learner : Int) = v)
    (hle : v + amount ≤ Reputation.maxScore)
    (h : Reputation.raise env updater learner amount s.world = .ok w') :
    ∃ u, Reputation.raise env updater learner amount { s.world with scores := scores } = .ok u ∧
      Shadow learner ({ s with world := w' }, v + amount) u := by
  obtain ⟨hauth, hupd, hlock, -, rfl⟩ := Reputation.raise_ok.mp h
  refine ⟨_, Reputation.raise_ok.mpr ⟨hauth, hupd, hlock, ?_, rfl⟩, _, rfl, ?_⟩
  · dsimp only
    omega
  · simp only [Function.update_self]
    omega

theorem shadow_lower (hb : s.world.Bounded) (hscore : (scores learner : Int) = v)
    (hv : v ≤ Reputation.maxScore) (hle : 0 ≤ v + -(amount : Int))
    (h : Reputation.lower env updater learner amount s.world = .ok w') :
    ∃ u, Reputation.lower env updater learner amount { s.world with scores := scores } = .ok u ∧
      Shadow learner ({ s with world := w' }, v + -(amount : Int)) u := by
  obtain ⟨hauth, hupd, hlock, -, rfl⟩ := (Reputation.lower_ok (hb.score_lt _)).mp h
  have hlt : scores learner < 2 ^ 32 := by
    simp only [Reputation.maxScore] at hv
    omega
  refine ⟨_, (Reputation.lower_ok hlt).mpr ⟨hauth, hupd, hlock, ?_, rfl⟩, _, rfl, ?_⟩
  · dsimp only
    omega
  · simp only [Function.update_self]
    omega

/-- An update of the learner's score goes through without the vouches as well,
when the vouch-free score stays within the bounds. -/
theorem shadow_scored {call : Reputation.Call} (hb : s.world.Bounded)
    (hw : Shadow learner (s, v) w) (hv : v ≤ Reputation.maxScore)
    (hcall : call.scored = some learner)
    (hset : (Label.reputation env call).overwrites learner = false)
    (hv' : 0 ≤ v + call.shift ∧ v + call.shift ≤ Reputation.maxScore)
    (h : Reputation.exec env call s.world = .ok w') :
    ∃ u, Reputation.Step w ⟨env, call⟩ u ∧
      Shadow learner ({ s with world := w' }, v + call.shift) u := by
  obtain ⟨scores, rfl, hscore⟩ := hw
  cases call with
  | increaseScore updater user amount =>
    obtain rfl := Option.some.inj hcall
    exact shadow_raise hscore hv'.2 h
  | addBoost updater user amount =>
    obtain rfl := Option.some.inj hcall
    exact shadow_raise hscore hv'.2 h
  | decreaseScore updater user amount =>
    obtain rfl := Option.some.inj hcall
    exact shadow_lower hb hscore hv hv'.1 h
  | removeBoost updater user amount =>
    obtain rfl := Option.some.inj hcall
    exact shadow_lower hb hscore hv hv'.1 h
  | setScore updater user score =>
    obtain rfl := Option.some.inj hcall
    simp [Label.overwrites] at hset
  | _ => simp [Reputation.Call.scored] at hcall

end Updates

/-- One step of the run without the vouches, or none. -/
theorem shadow_step {w : Reputation.Storage} (hx : Exact reputation learner x)
    (hax : Above learner x) (hy : Exact reputation learner y) (hay : Above learner y)
    (hset : l.overwrites learner = false) (hw : Shadow learner x w)
    (h : Tracked (Step self reputation) (external learner) x l y) :
    ∃ tr u, Run Reputation.Step w tr u ∧ tr.map Prod.snd = (l.alone learner).toList ∧
      Shadow learner y u := by
  obtain ⟨s, v⟩ := x
  obtain ⟨s', v'⟩ := y
  obtain ⟨hs, hv⟩ := h
  dsimp only at hs hv
  subst hv
  cases l with
  | vouching env call =>
    refine ⟨[], w, .nil, rfl, ?_⟩
    simpa [external] using shadow_vouching hx.sound.bounded hw (exec_effect hs)
  | boostConfigured boost =>
    simp only [Step, take, bind_ok, pure_ok, ensure_ok, exists_const] at hs
    obtain ⟨-, rfl⟩ := hs
    obtain ⟨scores, rfl, hscore⟩ := hw
    refine ⟨[], _, .nil, rfl, scores, rfl, ?_⟩
    simpa [external] using hscore
  | reputation env call =>
    simp only [Step, take, bind_ok, pure_ok] at hs
    obtain ⟨w', hw', rfl⟩ := hs
    by_cases hcall : call.scored = some learner
    · have hshift : external learner (.reputation env call) = call.shift := if_pos hcall
      have hbounds := hy.bounds hay
      rw [hshift] at hbounds ⊢
      obtain ⟨u, hstep, hu⟩ :=
        shadow_scored hx.sound.bounded hw (hx.bounds hax).2 hcall hset hbounds hw'
      exact ⟨_, u, Run.nil.snoc hstep, by simp [Label.alone, hcall], hu⟩
    have hshift : external learner (.reputation env call) = 0 := if_neg hcall
    rw [hshift, Int.add_zero]
    obtain ⟨scores, rfl, hscore⟩ := hw
    cases hother : call.scored with
    | none =>
      have hstep : Reputation.Step { s.world with scores := scores } ⟨env, call⟩
        { w' with scores := scores } := Reputation.exec_withScores hother scores hw'
      exact ⟨_, _, Run.nil.snoc hstep, by simp [Label.alone, hother], scores, rfl, hscore⟩
    | some target =>
      obtain ⟨score, rfl⟩ := Reputation.exec_scored hx.sound.bounded hother hw'
      have hdrop : Label.alone learner (.reputation env call) = none := by
        rw [hother] at hcall
        simp [Label.alone, hother, hcall]
      exact ⟨[], _, .nil, by simp [hdrop], scores, rfl, hscore⟩

theorem alone_of_run {tr : List ((State × Int) × Label)} {w : Reputation.Storage}
    (h0 : Exact reputation learner x) (hw : Shadow learner x w)
    (h : Run (Tracked (Step self reputation) (external learner)) x tr y)
    (hset : ∀ e ∈ tr, e.2.overwrites learner = false) (ha : AllStates (Above learner) tr y) :
    ∃ tr' u, Run Reputation.Step w tr' u ∧
      tr'.map Prod.snd = (tr.map Prod.snd).filterMap (Label.alone learner) ∧
      Shadow learner y u := by
  induction h with
  | nil => exact ⟨[], w, .nil, rfl, hw⟩
  | @snoc tr y z l hr hs ih =>
    obtain ⟨hpre, hz⟩ := allStates_snoc.mp ha
    obtain ⟨hsetPre, hsetLast⟩ := List.forall_mem_append.mp hset
    have hl : l.overwrites learner = false := hsetLast _ (List.mem_singleton_self _)
    obtain ⟨tr₁, u, hrun, hlabels, hu⟩ := ih hsetPre hpre
    have hy : Exact reputation learner y := (exact_of_run h0 hr hsetPre hpre).2
    obtain ⟨tr₂, u', hrun', hlabels', hu'⟩ :=
      shadow_step hy hpre.2 (hy.step hpre.2 hl hs) hz hl hu hs
    refine ⟨tr₁ ++ tr₂, u', hrun.append hrun', ?_, hu'⟩
    rw [List.map_append, hlabels, hlabels', List.map_append, List.filterMap_append]
    cases hal : l.alone learner with
    | none => simp [hal]
    | some a => simp [hal]

/-! ## The result -/

/-- Start where the learner has no active vouch, and let vouches come and go while
others move the score. As long as the vouch-free score stays at or above the
baseline, the score is the vouch-free one plus the active boosts in every state,
and the vouch-free one is what the same updates make of the score on their own. -/
theorem vouch_removal_exact {s₀ : State} {tr : List ((State × Int) × Label)} {v : Int}
    (h0 : Reachable Deployed (Step self reputation) s₀)
    (hnone : activeVouches s₀.vouching learner = [])
    (h : Run (Tracked (Step self reputation) (external learner))
      (s₀, s₀.world.scores learner) tr (s, v))
    (hset : ∀ e ∈ tr, e.2.overwrites learner = false) (ha : AllStates (Above learner) tr (s, v)) :
    AllStates (fun x => (x.1.world.scores learner : Int) =
        x.2 + activeBoost x.1.vouching learner ∧
      (activeVouches x.1.vouching learner = [] → (x.1.world.scores learner : Int) = x.2))
      tr (s, v) ∧
    ∃ tr' w, Run Reputation.Step s₀.world tr' w ∧
      tr'.map Prod.snd = (tr.map Prod.snd).filterMap (Label.alone learner) ∧
      (w.scores learner : Int) = v := by
  have hs := sound_of_reachable h0
  have hexact : Exact reputation learner (s₀, s₀.world.scores learner) := by
    refine ⟨hs, ?_⟩
    rw [(hs.store.agrees learner).total, activeBoost, hnone]
    simp
  constructor
  · refine (exact_of_run hexact h hset ha).imp fun x he => ?_
    have hscore := he.score
    rw [(he.sound.store.agrees learner).total] at hscore
    refine ⟨hscore, fun hempty => ?_⟩
    rw [hscore, activeBoost, hempty]
    simp
  · obtain ⟨tr', w, hrun, hlabels, scores, rfl, hscore⟩ :=
      alone_of_run hexact ⟨s₀.world.scores, rfl, rfl⟩ h hset ha
    exact ⟨tr', _, hrun, hlabels, hscore⟩

/-- Learner `30` comes to a score of `50`. -/
def exactSetup : List Label :=
  [.reputation (Env.signedBy [10] 50) (.initializeContract 10),
    .reputation (Env.signedBy [10] 50) (.setUpdater 10 7 true),
    .reputation (Env.signedBy [10] 50) (.setUpdater 10 8 true),
    .vouching (Env.signedBy [10] 50) (.initializeContract 10 3 10),
    .vouching (Env.signedBy [10] 60) (.setMentor 10 21 true),
    .vouching (Env.signedBy [10] 60) (.setMentor 10 22 true),
    .reputation (Env.signedBy [8] 70) (.increaseScore 8 30 50)]

/-- Mentor `21` vouches with boost `10`, another updater adds `20` and takes `15`,
mentor `22` vouches with boost `5`, and the larger vouch is revoked first. -/
def exactLabels : List Label :=
  [.vouching (Env.signedBy [21] 100) (.vouch 21 30),
    .reputation (Env.signedBy [8] 110) (.increaseScore 8 30 20),
    .reputation (Env.signedBy [8] 120) (.decreaseScore 8 30 15),
    .boostConfigured 5,
    .vouching (Env.signedBy [22] 130) (.vouch 22 30),
    .vouching (Env.signedBy [21] 140) (.revokeVouch 21 30)]

def exactRun : Except Failure (State × List ((State × Int) × Label) × State × Int) := do
  let (_, s₀) ← replay (take 7 3) sampleStart exactSetup
  let (tr, y) ← replay (trackedExec (take 7 3) (external 30)) (s₀, s₀.world.scores 30) exactLabels
  return (s₀, tr, y)

theorem vouch_removal_exact_sample : ∃ x : State × Int,
    x.1.world.scores 30 = 60 ∧ x.2 = 55 ∧
    (x.1.world.scores 30 : Int) = x.2 + activeBoost x.1.vouching 30 := by
  have hrun : exactRun.toOption.map (fun r =>
      (activeVouches r.1.vouching 30, r.2.1.all fun e => !e.2.overwrites 30,
        decide (AllStates (Above 30) r.2.1 r.2.2), r.2.2.1.world.scores 30, r.2.2.2)) =
      some ([], true, true, 60, 55) := by decide +kernel
  obtain ⟨⟨s₀, tr, y⟩, hr, hobs⟩ := toOption_map_some.mp hrun
  simp only [exactRun, bind_ok, pure_ok] at hr
  obtain ⟨⟨tr₀, s₁⟩, hsetup, ⟨tr₁, y₁⟩, hlabels, heq⟩ := hr
  obtain ⟨rfl, rfl, rfl⟩ : s₁ = s₀ ∧ tr₁ = tr ∧ y₁ = y := by simpa using heq
  obtain ⟨hnone, hset, habove, hscore, hv⟩ : activeVouches s₁.vouching 30 = [] ∧
      (∀ e ∈ tr₁, e.2.overwrites 30 = false) ∧ AllStates (Above 30) tr₁ y₁ ∧
      y₁.1.world.scores 30 = 60 ∧ y₁.2 = 55 := by simpa using hobs
  have h0 : Deployed sampleStart := ⟨rfl, rfl⟩
  have hreach : Reachable Deployed (Step 7 3) s₁ :=
    (Run.of_replay (fun _ _ _ _ h => h) hsetup).reachable h0
  have htracked : Run (Tracked (Step 7 3) (external 30)) (s₁, s₁.world.scores 30) tr₁ y₁ :=
    Run.of_replay (fun _ _ _ _ h => trackedExec_ok.mp h) hlabels
  obtain ⟨hstates, -⟩ := vouch_removal_exact hreach hnone htracked hset habove
  exact ⟨y₁, hscore, hv, hstates.2.1⟩

end StepFi.Vouching.Scores

import ViewConstraints.Proofs.Scene.Isolation

/-!
# Engines are apart

A step is addressed to the engines of what it names: views that it adds, lays out, holds or reads,
left anchors that it relates, constraints that it switches. An engine to which no step of a run is
addressed looks after the run as it did before (`Session.observe_of_foreign`): its configuration, what
its solver holds, its views with their frames, pins and insets, and the activity of its constraints.
Right anchors do not count, nor does the engine that is asked to switch several constraints.
-/

namespace ViewConstraints

open Layout Scene

namespace Session

variable {K : Type} [Scalar K]

omit [Scalar K] in
/-- The engines that a step is addressed to; a new engine is addressed by the step that adds it. -/
def addressees (s : Session K) : Step K → List EngineId
  | .addEngine (.ok _) => [s.scene.engines.length]
  | .addView engine _ _ => [engine]
  | .layout view _ | .frame view | .safeFrame view | .setInsets view _ | .setPinned view _ =>
    [s.scene.viewOwner view]
  | .relate lhs _ | .make lhs _ _ _ | .makeFixed lhs _ => [s.scene.engineOf lhs]
  | .setActive place _ | .trySetActive place _ => (s.kept[place]?.map s.scene.constraintOwner).toList
  | .setAllActive _ places _ => (places.filterMap fun p => s.kept[p]?).map s.scene.constraintOwner
  | .frames => s.scene.views.map View.engine
  | .addEngine (.error _) | .config _ | .view _ | .copy _ | .constraints | .compare _ _ | .offset _ _
  | .inspectView _ | .inspectConstraint _ => []

/-- No step of a run is addressed to an engine. -/
def Foreign (i : EngineId) : Session K → List (Step K) → Prop
  | _, [] => True
  | s, step :: rest => i ∉ s.addressees step ∧ Foreign i (s.perform step).2 rest

/-- Whether a run is foreign to an engine is seen by running it. -/
def Foreign.decide (i : EngineId) :
    (s : Session K) → (steps : List (Step K)) → Decidable (Foreign i s steps)
  | _, [] => .isTrue trivial
  | s, step :: rest =>
    have := Foreign.decide i (s.perform step).2 rest
    inferInstanceAs (Decidable (i ∉ s.addressees step ∧ Foreign i (s.perform step).2 rest))

instance (i : EngineId) (s : Session K) (steps : List (Step K)) : Decidable (Foreign i s steps) :=
  Foreign.decide i s steps

/-- A step leaves every engine alone that it is not addressed to. The cases are those of a step; a
block is addressed to the engine of its view, also if the anchors on the right belong to others. -/
theorem perform_untouched {i : EngineId} {s : Session K} {step : Step K}
    (h : i ∉ s.addressees step) : Untouched i s.scene (s.perform step).2.scene := by
  have idle : Untouched i s.scene s.scene := .refl i s.scene
  have ne_of_notMem {j : EngineId} (h : i ∉ [j]) : j ≠ i := (List.ne_of_not_mem_cons h).symm
  cases step with
  | addEngine config =>
    cases config with
    | error error => exact idle
    | ok config => exact addEngine_untouched (ne_of_notMem h) config
  | config engine | view engine | inspectView engine =>
    simp only [perform, withEngine, withView]
    split <;> exact idle
  | addView engine name frame =>
    simp only [perform, withEngine]
    split
    · exact idle
    · exact insertView_untouched (ne_of_notMem h) ..
  | layout view statements =>
    simp only [perform, Scene.host_layout, foldl_keepOutcome_scene]
    have owner : s.scene.viewOwner view ≠ i := ne_of_notMem h
    refine (setPinned_untouched owner false).trans (stateAll_untouched statements ?_)
    rwa [viewOwner_congr (setPinned_steady s.scene view false).views]
  | relate lhs relating =>
    simp only [perform, Scene.host_relateAnchor, answerKept_scene]
    exact state_untouched (ne_of_notMem h) relating
  | make lhs relation rhs offset =>
    simp only [perform, answerKept_scene]
    exact relate_untouched (ne_of_notMem h) ..
  | makeFixed lhs value =>
    simp only [perform, answerKept_scene]
    exact relateNumber_untouched (ne_of_notMem h) value
  | copy place =>
    simp only [perform, withKept]
    split
    · exact idle
    · rw [answerKept_scene]; exact idle
  | setActive place active =>
    simp only [perform, withKept]
    split
    · exact idle
    next c hc =>
      rw [addressees, hc] at h
      exact setActive_untouched (ne_of_notMem h) active
  | trySetActive place active =>
    simp only [perform, withKept]
    split
    · exact idle
    next c hc =>
      rw [addressees, hc] at h
      have tried := trySetActive_untouched (ne_of_notMem h) active
      generalize s.scene.trySetActive c active = a at tried ⊢
      obtain ⟨_ | _, t⟩ := a <;> exact tried
  | setAllActive engine places active =>
    simp only [perform, withEngine]
    split
    · exact idle
    · refine setAllActive_untouched active _ fun c hc heq => h ?_
      exact heq ▸ List.mem_map_of_mem hc
  | frame view | safeFrame view =>
    simp only [perform, withView]
    split
    · exact idle
    · exact frame_untouched (ne_of_notMem h)
  | frames =>
    refine readFrames_untouched _ fun view hview heq => h ?_
    have lt : view < s.scene.views.length := List.mem_range.1 hview
    rw [viewOwner, List.getElem?_eq_getElem lt] at heq
    exact heq ▸ List.mem_map_of_mem (List.getElem_mem lt)
  | setInsets view insets =>
    simp only [perform, withView]
    split
    · exact idle
    · exact setInsets_untouched (ne_of_notMem h) insets
  | setPinned view enabled =>
    simp only [perform, withView]
    split
    · exact idle
    · exact setPinned_untouched (ne_of_notMem h) enabled
  | constraints | compare a b | offset anchor shifts => exact idle
  | inspectConstraint place =>
    simp only [perform, withKept]
    split
    · exact idle
    · split <;> exact idle

/-- A run of steps that are foreign to an engine does not touch it. -/
theorem run_untouched {i : EngineId} {s : Session K} {steps : List (Step K)}
    (h : Foreign i s steps) : Untouched i s.scene (s.run steps).scene := by
  induction steps generalizing s with
  | nil => exact .refl i s.scene
  | cons step steps ih => exact (perform_untouched h.1).trans (ih h.2)

/-- An engine that no step of a run is addressed to looks after the run as it did before. -/
theorem observe_of_foreign {i : EngineId} {s : Session K} {steps : List (Step K)}
    (h : Foreign i s steps) : (s.run steps).scene.observe i = s.scene.observe i :=
  (run_untouched h).observe

/-- Two engines, one with a card and one with a badge that was released and given a width. -/
def cardAndBadge : Session Rat :=
  (start .standard).run [.addEngine (.ok .standard), .addView 0 "card" ⟨5, 6, 100, 50⟩,
    .addView 1 "badge" ⟨0, 0, 20, 20⟩, .layout 3 [⟨.width, .equalConstant 30, true⟩]]

/-- A card is laid out against a badge of another engine, through which its constraints are
switched as well. -/
def cardFollowsBadge : List (Step Rat) :=
  [.layout 2 [⟨.width, .greaterThanOrEqualTo ⟨⟨3, .width, false⟩, [.plus 10]⟩, true⟩],
    .make ⟨2, .height, false⟩ .equal ⟨3, .height, false⟩ 0,
    .setAllActive 1 [1, 2] false,
    .setAllActive 1 [2, 1] true,
    .frame 2,
    .setInsets 2 ⟨1, 2, 3, 4⟩,
    .setPinned 2 true,
    .trySetActive 2 false,
    .addView 0 "label" ⟨1, 1, 1, 1⟩]

/-- A card on the one engine is laid out against a badge on the other, through which its constraints
are switched as well, and the engine of the badge looks as before. -/
theorem observe_of_foreign_cardFollowsBadge :
    Foreign 1 cardAndBadge cardFollowsBadge ∧
    (cardAndBadge.run cardFollowsBadge).scene.observe 1 = cardAndBadge.scene.observe 1 :=
  have foreign : Foreign 1 cardAndBadge cardFollowsBadge := by decide +kernel
  ⟨foreign, observe_of_foreign foreign⟩

end Session

end ViewConstraints

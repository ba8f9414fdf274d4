import ViewConstraints.Proofs.Scene.Created

/-!
# Views that were never released

A view that has not been released since it was made is read at the frame it was made with, whatever
else was asked for in the session, granted or refused: `Session.frame_of_unreleased`. The root view of
an engine is made with the size of the configuration.

The frames are collected along a run (`Session.unreleased`), and the run keeps that the views they
belong to are held at them (`Upheld`). A view that is made meets nothing on its unknowns, because
anchors are of views that exist (`Session.AnchorsExist`).
-/

namespace ViewConstraints

open Layout Linear Scene

namespace Session

variable {K : Type} [Scalar K]

/-! ## Frames that views were made with -/

/-- The frame of the view that a step makes, if it makes one. -/
def made? (s : Session K) : Step K → Option (Rect K)
  | .addEngine (.ok config) => some config.rootFrame
  | .addView engine _ frame => if engine < s.scene.engines.length then some frame else none
  | _ => none

/-- The frames that views were made with, except for that of the view that a step releases, if it
turns holding it off or runs a layout block on it. -/
def dropReleased (step : Step K) (frames : List (Option (Rect K))) : List (Option (Rect K)) :=
  match step.pinning? with
  | some (view, false) => frames.set view none
  | _ => frames

/-- The frames that the views of a session were made with, in order, except for views that were
released since; `frames` are those of the views before the steps. -/
def unreleased (s : Session K) (frames : List (Option (Rect K))) :
    List (Step K) → List (Option (Rect K))
  | [] => frames
  | step :: rest =>
    unreleased (s.perform step).2 (dropReleased step frames ++ (s.made? step).toList.map some) rest

/-- Every anchor that a step relates is of a view that exists when the step is performed, as it is if
anchors are taken from views. -/
def AnchorsExist (s : Session K) : List (Step K) → Prop
  | [] => True
  | step :: rest =>
    (∀ a ∈ step.anchors, a.view < s.scene.views.length) ∧ AnchorsExist (s.perform step).2 rest

instance decidableAnchorsExist (s : Session K) :
    (steps : List (Step K)) → Decidable (s.AnchorsExist steps)
  | [] => .isTrue trivial
  | step :: rest => @instDecidableAnd _ _ inferInstance (decidableAnchorsExist (s.perform step).2 rest)

section

variable {K : Type} {frames : List (Option (Rect K))} {view : ViewId} {frame : Rect K} {step : Step K}

/-- Dropping a frame leaves its place in the list. -/
theorem length_dropReleased (step : Step K) (frames : List (Option (Rect K))) :
    (dropReleased step frames).length = frames.length := by
  unfold dropReleased
  split
  · exact List.length_set
  · rfl

/-- A frame is dropped with the release of its own view only. -/
theorem dropReleased_eq_some (h : (dropReleased step frames)[view]? = some (some frame)) :
    frames[view]? = some (some frame) ∧ step.pinning? ≠ some (view, false) := by
  unfold dropReleased at h
  split at h
  next w hw =>
    have other : w ≠ view := by
      rintro rfl
      rw [List.getElem?_set_self'] at h
      cases hf : frames[w]? <;> rw [hf] at h <;> cases h
    rw [List.getElem?_set_ne other] at h
    exact ⟨h, fun hp => other (Prod.mk.inj (Option.some.inj (hw.symm.trans hp))).1⟩
  next hne => exact ⟨h, hne view⟩

end

/-- The root view of an engine was made with the size of the configuration, or has been released. -/
def Rooted (frames : List (Option (Rect K))) (engine : Config K × ViewId) : Prop :=
  frames[engine.2]? = some none ∨ frames[engine.2]? = some (some engine.1.rootFrame)

/-- A root that is released is no longer required to have the size of the configuration. -/
theorem Rooted.drop {frames : List (Option (Rect K))} {engine : Config K × ViewId}
    (h : Rooted frames engine) (step : Step K) : Rooted (dropReleased step frames) engine := by
  unfold dropReleased
  split
  next w _ =>
    by_cases hw : w = engine.2
    · refine .inl ?_
      rw [hw, List.getElem?_set_self']
      rcases h with h | h <;> rw [h] <;> rfl
    · rwa [Rooted, List.getElem?_set_ne hw]
  · exact h

/-- Views that are made later do not change which frame a root was made with. -/
theorem Rooted.append {frames : List (Option (Rect K))} {engine : Config K × ViewId}
    (h : Rooted frames engine) (others : List (Option (Rect K))) :
    Rooted (frames ++ others) engine := by
  have stays {given : Option (Rect K)} (h : frames[engine.2]? = some given) :
      (frames ++ others)[engine.2]? = some given := by
    rw [List.getElem?_append_left (List.getElem?_eq_some_iff.1 h).1, h]
  exact h.imp stays stays

/-! ## Steps that make nothing -/

/-- A step that makes neither a view nor an engine is made of requests, so what all requests keep it
keeps too. -/
theorem perform_makesNothing {R : Scene K → Scene K → Prop} (h : StableBase R) (s : Session K)
    {step : Step K} (made : s.made? step = none) (hR : Relates (· ∈ step.anchors) R)
    (pinning : ∀ view enabled, step.pinning? = some (view, enabled) →
      R s.scene (s.scene.setPinned view enabled))
    (attempt : ∀ c active, R s.scene (s.scene.trySetActive c active).2) :
    R s.scene (s.perform step).2.scene := by
  refine perform_stableBase h s step ?_ ?_ hR pinning fun _ active c _ _ => attempt c active
  · rintro config rfl
    cases made
  · rintro engine name frame rfl he
    rw [made?, if_pos he] at made
    cases made

section

variable [UnitScalar K]

/-- A step that makes nothing, and relates anchors of views that exist, mentions no unknown of a view
still to be made. -/
theorem perform_keepsBelow (s : Session K) {step : Step K} (made : s.made? step = none) {n : Nat}
    (hn : ∀ a ∈ step.anchors, a.view < n) : KeepsBelow n s.scene (s.perform step).2.scene :=
  perform_makesNothing keepsBelow_base s made (keepsBelow_relates.mono hn)
    (fun view enabled _ => setPinned_keepsBelow s.scene view enabled)
    (trySetActive_keepsBelow s.scene)

/-- A step that makes nothing and does not release the view keeps it held where it is. -/
theorem perform_keepsHeld (s : Session K) {step : Step K} (made : s.made? step = none) {view : ViewId}
    (kept : step.pinning? ≠ some (view, false)) (frame : Rect K) :
    KeepsHeld view frame s.scene (s.perform step).2.scene := by
  refine perform_makesNothing keepsHeld_base s made (keepsHeld_relates.mono fun _ _ => trivial) ?_
    (trySetActive_keepsHeld s.scene)
  intro other enabled hp
  refine setPinned_keepsHeld s.scene fun hoff heq => kept ?_
  rw [hp, hoff, heq]

end

/-! ## Runs -/

section

variable [UnitScalar K] {frames : List (Option (Rect K))} {s : Scene K}

/-- The views of a scene that were not released are held at the frames they were made with, and each
engine has its root view among the views. -/
structure Upheld (frames : List (Option (Rect K))) (s : Scene K) : Prop extends AllHeld frames s where
  roots : ∀ engine ∈ s.engines.map Engine.identity, Rooted frames engine

/-- An engine is made with its root view. It may be the first of its scene. -/
theorem upheld_addEngine {config : Config K}
    (h : AllHeld frames { s with engines := s.engines ++ [Engine.create config s.views.length] })
    (roots : ∀ engine ∈ s.engines.map Engine.identity, Rooted frames engine) :
    Upheld (frames ++ [some config.rootFrame]) (s.addEngine config).2 where
  toAllHeld := by
    rw [addEngine_eq_insertView]
    exact h.insertView "root" (by simp) config.rootFrame config.safeAreaInsets
  roots engine hengine := by
    rw [addEngine_eq_insertView, insertView_engines, List.map_append] at hengine
    rcases List.mem_append.1 hengine with hengine | hengine
    · exact (roots engine hengine).append _
    · rw [List.mem_singleton.1 hengine]
      have length : frames.length = s.views.length := h.length
      exact .inr (length ▸ List.getElem?_concat_length)

/-- A new view is held at the frame it is made with, since no constraint is on its unknowns yet; the
others stay where they are. -/
theorem Upheld.addView (h : Upheld frames s) {engine : EngineId} (he : engine < s.engines.length)
    (name : String) (frame : Rect K) :
    Upheld (frames ++ [some frame]) (s.addView engine name frame).2 where
  toAllHeld := h.insertView name he frame .zero
  roots engine hengine := by
    rw [Scene.addView, insertView_engines] at hengine
    exact (h.roots engine hengine).append _

/-- A step that makes nothing drops the frame of the view that it releases, if it releases one. -/
theorem Upheld.perform_makesNothing {s : Session K} (h : Upheld frames s.scene) {step : Step K}
    (made : s.made? step = none) (anchors : ∀ a ∈ step.anchors, a.view < s.scene.views.length) :
    Upheld (dropReleased step frames) (s.perform step).2.scene := by
  have kept := perform_keepsBelow s made anchors
  refine ⟨⟨kept.orderly h.orderly, ?_, ?_, ?_⟩, ?_⟩
  · rw [kept.views]
    exact kept.below h.orderly (Nat.le_refl _) h.below
  · rw [length_dropReleased, h.length, kept.views]
  · intro view frame hframe
    obtain ⟨hframe, unreleased⟩ := dropReleased_eq_some hframe
    exact (perform_keepsHeld s made unreleased frame).held h.orderly (h.held view frame hframe)
  · rw [kept.engines]
    exact fun engine hengine => (h.roots engine hengine).drop step

/-- A step adds the frame of what it makes, or else drops the frame of what it releases. -/
theorem Upheld.perform {s : Session K} (h : Upheld frames s.scene) {step : Step K}
    (anchors : ∀ a ∈ step.anchors, a.view < s.scene.views.length) :
    Upheld (dropReleased step frames ++ (s.made? step).toList.map some) (s.perform step).2.scene := by
  cases made : s.made? step with
  | none =>
    rw [Option.toList_none, List.map_nil, List.append_nil]
    exact h.perform_makesNothing made anchors
  | some frame =>
    cases step with
    | addEngine config =>
      cases config with
      | error error => cases made
      | ok config =>
        cases made
        exact upheld_addEngine (h.appendEngine config _) h.roots
    | addView engine name given =>
      rw [made?] at made
      split at made
      next he =>
        cases made
        simp only [Session.perform, withEngine, List.getElem?_eq_getElem he]
        exact h.addView he name frame
      next => cases made
    | _ => cases made

/-- The same of a run, step by step. -/
theorem Upheld.run (steps : List (Step K)) {frames : List (Option (Rect K))} {s : Session K}
    (h : Upheld frames s.scene) (anchors : s.AnchorsExist steps) :
    Upheld (s.unreleased frames steps) (s.run steps).scene := by
  induction steps generalizing s frames with
  | nil => exact h
  | cons step steps ih => exact ih (h.perform anchors.1) anchors.2

/-- A session starts with the root of its first engine, held at the size of the configuration. -/
theorem upheld_start (config : Config K) :
    Upheld [some config.rootFrame] (start config).scene := by
  let first := Engine.create config (empty : Scene K).views.length
  have orderly : Orderly { (empty : Scene K) with engines := empty.engines ++ [first] } :=
    ⟨numbered_start config _, List.forall_mem_singleton.2 (Engine.create_faithful config _), nofun⟩
  have below : Below 0 (empty : Scene K) := ⟨List.forall_mem_nil _, List.forall_mem_nil _⟩
  have held : AllHeld [] { (empty : Scene K) with engines := empty.engines ++ [first] } :=
    ⟨orderly, below.appendEngine config _, rfl, nofun⟩
  exact upheld_addEngine held nofun

/-- In every state of a session each view that has not been released since it was made is read at the
frame it was made with; and the root view of an engine is made with the size of the configuration. -/
theorem frame_of_unreleased (config : Config K) (steps : List (Step K))
    (anchors : (start config).AnchorsExist steps) :
    let t := (start config).run steps
    let frames := (start config).unreleased [some config.rootFrame] steps
    frames.length = t.scene.views.length ∧
    (∀ view frame, frames[view]? = some (some frame) →
      ∀ q, Agree ((t.scene.frame view).1.component q) (frame.component q)) ∧
    ∀ e ∈ t.scene.engines, frames[e.root]? ≠ some none →
      ∀ q, Agree ((t.scene.frame e.root).1.component q) (e.config.rootFrame.component q) := by
  intro t frames
  have upheld : Upheld frames t.scene := (upheld_start config).run steps anchors
  have read : ∀ view frame, frames[view]? = some (some frame) →
      ∀ q, Agree ((t.scene.frame view).1.component q) (frame.component q) :=
    fun view frame hframe => (upheld.held view frame hframe).frame upheld.orderly
  refine ⟨upheld.length, read, ?_⟩
  intro e he unreleased
  rcases upheld.roots e.identity (List.mem_map_of_mem he) with released | given
  · exact absurd released unreleased
  · exact read e.root _ given

end

/-- A card and a badge. The width of the card is asked for in vain; the badge is released, put beside
the card and held there. -/
def badgeBesideCard : List (Step Float) :=
  [.addView 0 "card" ⟨5.0, 6.0, 100.0, 50.0⟩,
    .addView 0 "badge" ⟨0.0, 0.0, 30.0, 30.0⟩,
    .relate ⟨1, .width, false⟩ (.equalConstant 200.0),
    .layout 2 [⟨.leading, .explicit .equal ⟨1, .trailing, false⟩ 8.0, true⟩],
    .setPinned 2 true]

/-- `frame_of_unreleased` where a card is not released, and a badge is released and held again. -/
theorem frame_of_unreleased_badgeBesideCard :
    (start Config.standard).AnchorsExist badgeBesideCard ∧
    ((start Config.standard).run badgeBesideCard).scene.constraints.map AnchorConstraint.active =
      [false, true] ∧
    ∃ card, card.width = 100.0 ∧
      ((start Config.standard).unreleased [some Config.standard.rootFrame] badgeBesideCard)[1]? =
        some (some card) ∧
      ∀ q, Agree ((((start Config.standard).run badgeBesideCard).scene.frame 1).1.component q)
        (card.component q) := by
  obtain ⟨anchors, active, given⟩ : (start Config.standard).AnchorsExist badgeBesideCard ∧
      ((start Config.standard).run badgeBesideCard).scene.constraints.map AnchorConstraint.active =
        [false, true] ∧
      (((start Config.standard).unreleased [some Config.standard.rootFrame]
        badgeBesideCard)[1]?.join.map Rect.width) = some 100.0 := by
    decide +kernel
  obtain ⟨card, hjoin, width⟩ := Option.map_eq_some_iff.1 given
  have hcard := Option.join_eq_some_iff.1 hjoin
  obtain ⟨-, read, -⟩ := frame_of_unreleased .standard badgeBesideCard anchors
  exact ⟨anchors, active, card, width, hcard, read 1 card hcard⟩

end Session

end ViewConstraints

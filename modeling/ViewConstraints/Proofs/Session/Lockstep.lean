import ViewConstraints.Proofs.Scene.Surplus

/-!
# Sessions in lock-step

Two sessions whose scenes differ in surplus mentions only (`Surplus`) answer every step alike and stay
that way, as long as the unknowns of which there is a surplus keep their symbols in the first
(`perform_surplus`, `run_surplus`).
-/

namespace ViewConstraints.Session

open Linear Layout Scene Simplex

section

variable {K : Type} {E : EngineId → Variable → Nat} {s t : Session K}

/-- Two sessions that differ in surplus mentions only. -/
structure Surplus (E : EngineId → Variable → Nat) (s t : Session K) : Prop where
  kept : t.kept = s.kept
  scene : Scene.Surplus E s.scene t.scene

/-- Sessions that keep the same differ in surplus mentions only if their scenes do. -/
theorem Surplus.withScene [Scalar K] (h : Surplus E s t) {u u' : Scene K} (hu : Scene.Surplus E u u') :
    Surplus E (s.withScene u) (t.withScene u') :=
  ⟨h.kept, hu⟩

/-- A surplus of mentions does not show in the record of constraints. -/
theorem Surplus.sameRecord (h : Surplus E s t) : t.SameRecord s where
  kept := h.kept
  constraints := by rw [h.scene.rest]

/-- Keeping a constraint answers the same with a surplus as without. -/
theorem answerKept_surplus (h : Surplus E s t) (c : ConstraintId) :
    (t.answerKept c).1 = (s.answerKept c).1 ∧ Surplus E (s.answerKept c).2 (t.answerKept c).2 := by
  obtain ⟨same, record⟩ := h.sameRecord.answerKept c
  refine ⟨same, record.kept, ?_⟩
  rw [answerKept_scene, answerKept_scene]
  exact h.scene

/-! ## Steps on what exists -/

/-- Outcomes of a step that differ in surplus mentions only: the answer is the same. -/
def Alike (E : EngineId → Variable → Nat) (a b : Answer K × Session K) : Prop :=
  b.1 = a.1 ∧ Surplus E a.2 b.2

/-- A step about a kept constraint is about the same constraint in both sessions. -/
theorem Surplus.withKept (h : Surplus E s t) {place : Nat}
    {f g : ConstraintId → Answer K × Session K}
    (each : ∀ c, s.kept[place]? = some c → Alike E (f c) (g c)) :
    Alike E (s.withKept place f) (t.withKept place g) := by
  rw [Session.withKept, Session.withKept, h.kept]
  split
  · exact ⟨rfl, h⟩
  next c hc => exact each c hc

/-- A step about a view is about the same view in both sessions, or about none. -/
theorem Surplus.withView (h : Surplus E s t) {view : ViewId} {f g : View K → Answer K × Session K}
    (each : ∀ v, s.scene.views[view]? = some v → Alike E (f v) (g v)) :
    Alike E (s.withView view f) (t.withView view g) := by
  have views : t.scene.views[view]? = s.scene.views[view]? := by rw [h.scene.rest]
  rw [Session.withView, Session.withView, views]
  split
  · exact ⟨rfl, h⟩
  next v hv => exact each v hv

/-- A step about an engine is about engines with the same configuration, or about none. -/
theorem Surplus.withEngine (h : Surplus E s t) {engine : EngineId}
    {f g : Engine K → Answer K × Session K}
    (each : ∀ e e', s.scene.engines[engine]? = some e → e'.config = e.config → Alike E (f e) (g e')) :
    Alike E (s.withEngine engine f) (t.withEngine engine g) := by
  unfold Session.withEngine
  rcases h.scene.lookup engine with ⟨he, hf⟩ | ⟨e, e', he, hf, hee'⟩
  · rw [he, hf]
    exact ⟨rfl, h⟩
  · rw [he, hf]
    exact each e e' he (by rw [hee'.rest])

end

variable {K : Type} [Scalar K] {E : EngineId → Variable → Nat} {σ : EngineId → Variable → Symbol}
  {s t : Session K}

/-- An answered request, refused or not. -/
theorem attempt_surplus (h : Surplus E s t) (hs : Lasting E σ s.scene) {place : Nat} (active : Bool)
    (hk : Lasting E σ (s.perform (.trySetActive place active)).2.scene) :
    Alike E (s.perform (.trySetActive place active)) (t.perform (.trySetActive place active)) := by
  rw [perform] at hk
  unfold perform
  refine h.withKept ?_
  intro c hc
  rw [Session.withKept, hc] at hk
  dsimp only at hk
  have tried := trySetActive_surplus h.scene hs c active
  generalize s.scene.trySetActive c active = a at tried hk ⊢
  generalize t.scene.trySetActive c active = b at tried ⊢
  obtain ⟨answer, u⟩ := a
  obtain ⟨answer', u'⟩ := b
  have asked : Lasting E σ u := by cases answer <;> exact hk
  obtain ⟨same, surplus⟩ := tried asked
  cases same
  cases answer with
  | ok _ | error _ =>
    dsimp only
    rw [surplus.isActive]
    exact ⟨rfl, h.withScene surplus⟩

/-- A block: its view is released first, then its statements are made. -/
theorem layout_surplus (hn : Numbered [] s.scene) (h : Surplus E s t) (hs : Lasting E σ s.scene)
    (view : ViewId) (statements : List (Statement K))
    (hk : Lasting E σ (s.perform (.layout view statements)).2.scene) :
    Alike E (s.perform (.layout view statements)) (t.perform (.layout view statements)) := by
  simp only [perform, host_layout] at hk ⊢
  rw [foldl_keepOutcome_scene] at hk
  have hn' := hn.setPinned view false
  have kept := hs.between hk (hn.setPinned_evolves view false (fun hon => Bool.noConfusion hon) fun _ _ _ _ _ => trivial)
    ((evolves_stable.stateAll view statements _).2 hn')
  have released := setPinned_surplus hn h.scene view false hs kept
  obtain ⟨same, surplus⟩ := stateAll_surplus view statements hn' released kept hk
  rw [same]
  have result := h.withScene surplus
  obtain ⟨outcomes, record⟩ := result.sameRecord.foldl_keepOutcome _ []
  refine ⟨congrArg Answer.block outcomes, record.kept, ?_⟩
  rw [foldl_keepOutcome_scene, foldl_keepOutcome_scene]
  exact result.scene

/-- A step is answered alike with a surplus as without, and leaves the surplus behind. The unknowns of
which there is a surplus have to be in use before the step and after it: an unknown that goes out of
use in the one session and not in the other would be the end of the lock-step. -/
theorem perform_surplus (hn : Numbered [] s.scene) (h : Surplus E s t) (step : Step K)
    (hs : Lasting E σ s.scene) (hk : Lasting E σ (s.perform step).2.scene) :
    Alike E (s.perform step) (t.perform step) := by
  have count : t.scene.views.length = s.scene.views.length := by rw [h.scene.rest]
  cases step with
  | addEngine config =>
    cases config with
    | error error => exact ⟨rfl, h⟩
    | ok config =>
      obtain ⟨same, surplus⟩ := addEngine_surplus h.scene hs config hk
      simp only [perform]
      rw [same, count]
      exact ⟨rfl, h.withScene surplus⟩
  | config engine =>
    refine h.withEngine ?_
    intro e e' _ hconfig
    rw [hconfig]
    exact ⟨rfl, h⟩
  | addView engine name frame =>
    refine h.withEngine ?_
    intro e _ he _
    rw [perform, Session.withEngine, he] at hk
    obtain ⟨same, surplus⟩ := insertView_surplus h.scene hs name engine frame .zero hk
    dsimp only [addView]
    rw [same, show (t.scene.insertView name engine frame .zero).2.views =
      (s.scene.insertView name engine frame .zero).2.views by rw [surplus.rest]]
    exact ⟨rfl, h.withScene surplus⟩
  | view view =>
    refine h.withView ?_
    intro v _
    rw [h.scene.priorityOf]
    exact ⟨rfl, h⟩
  | layout view statements => exact layout_surplus hn h hs view statements hk
  | relate lhs relating =>
    simp only [perform, host_relateAnchor, answerKept_scene] at hk ⊢
    obtain ⟨same, surplus⟩ := state_surplus h.scene hs lhs relating hk
    rw [same]
    exact answerKept_surplus (h.withScene surplus) _
  | make lhs relation rhs offset =>
    obtain ⟨same, surplus⟩ := relate_surplus h.scene lhs relation rhs offset
    simp only [perform]
    rw [same]
    exact answerKept_surplus (h.withScene surplus) _
  | makeFixed lhs value =>
    obtain ⟨same, surplus⟩ := relateNumber_surplus h.scene lhs value
    simp only [perform]
    rw [same]
    exact answerKept_surplus (h.withScene surplus) _
  | copy place => exact h.withKept fun c _ => answerKept_surplus h c
  | setActive place active =>
    refine h.withKept ?_
    intro c hc
    rw [perform, Session.withKept, hc] at hk
    have surplus := setActive_surplus h.scene hs c active hk
    dsimp only
    rw [surplus.isActive]
    exact ⟨rfl, h.withScene surplus⟩
  | trySetActive place active => exact attempt_surplus h hs active hk
  | setAllActive engine cs active =>
    refine h.withEngine ?_
    intro e _ he _
    rw [perform, Session.withEngine, he] at hk
    rw [h.kept]
    have surplus := setAllActive_surplus active _ hn h.scene hs hk
    refine ⟨congrArg Answer.flags (List.map_congr_left ?_), h.withScene surplus⟩
    intro place _
    exact (h.withScene surplus).sameRecord.isActive place
  | constraints =>
    simp only [perform]
    rw [h.sameRecord.keptState, h.kept]
    exact ⟨rfl, h⟩
  | frame view =>
    refine h.withView ?_
    intro v _
    obtain ⟨same, surplus⟩ := frame_surplus h.scene view
    dsimp only
    rw [same]
    exact ⟨rfl, h.withScene surplus⟩
  | safeFrame view =>
    refine h.withView ?_
    intro v _
    obtain ⟨same, surplus⟩ := frame_surplus h.scene view
    dsimp only [safeFrame]
    rw [same, show (t.scene.frame view).2.insets view = (s.scene.frame view).2.insets view by
      rw [surplus.rest]; rfl]
    exact ⟨rfl, h.withScene surplus⟩
  | frames =>
    simp only [perform]
    rw [count]
    obtain ⟨same, surplus⟩ := readFrames_surplus (List.range s.scene.views.length) h.scene
    exact ⟨congrArg Answer.frames same, h.withScene surplus⟩
  | setInsets view insets =>
    refine h.withView ?_
    intro v _
    have surplus := h.scene.modifyView view fun v => { v with insets }
    refine ⟨congrArg Answer.insets ?_, h.withScene surplus⟩
    rw [Scene.setInsets, surplus.rest]
    rfl
  | setPinned view enabled =>
    refine h.withView ?_
    intro v hv
    rw [perform, Session.withView, hv] at hk
    have surplus := setPinned_surplus hn h.scene view enabled hs hk
    dsimp only
    rw [show (t.scene.setPinned view enabled).views[view]? =
      (s.scene.setPinned view enabled).views[view]? by rw [surplus.rest]]
    exact ⟨rfl, h.withScene surplus⟩
  | compare a b => exact ⟨rfl, h⟩
  | offset anchor shifts =>
    simp only [perform]
    rw [show t.scene.nameOf anchor = s.scene.nameOf anchor by rw [h.scene.rest]; rfl]
    exact ⟨rfl, h⟩
  | inspectView view => exact h.withView fun v _ => ⟨rfl, h⟩
  | inspectConstraint place =>
    refine h.withKept ?_
    intro c _
    rw [show t.scene.constraints[c]? = s.scene.constraints[c]? by rw [h.scene.rest]]
    split <;> exact ⟨rfl, h⟩

/-- A run is answered alike with a surplus as without, and leaves the surplus behind. -/
theorem run_surplus (steps : List (Step K)) (hn : Numbered [] s.scene) (h : Surplus E s t)
    (hs : Lasting E σ s.scene) (hk : Lasting E σ (s.run steps).scene) :
    t.answers steps = s.answers steps ∧ Surplus E (s.run steps) (t.run steps) := by
  induction steps generalizing s t with
  | nil => exact ⟨rfl, h⟩
  | cons step steps ih =>
    obtain ⟨hn', first⟩ := run_evolves [step] hn
    have kept := hs.between hk first (run_evolves steps hn').2
    obtain ⟨answer, surplus⟩ := perform_surplus hn h step hs kept
    obtain ⟨rest, result⟩ := ih hn' surplus kept hk
    refine ⟨?_, result⟩
    rw [answers, answers, answer]
    exact congrArg _ rest

end ViewConstraints.Session

import ViewConstraints.Proofs.Scene.Stale
import ViewConstraints.Proofs.Session.Soft

/-!
# Runs that differ in readings

Two runs take the same steps, but the second also reads frames in between. What a step shows is its
answer, the reports it adds to the log and the frames it reads, those that a view is held at again
included. The steps that the runs share show the same in both exactly if no number they read is stale in
one run only, or stale in both and not the same (`Session.shown_agree_iff`).

It does happen that a number is stale in one run only: a reading in between learns the value of an
unknown that goes out of use, and this value is read when the unknown comes back as zero
(`Session.isActive_apart`).
-/

namespace ViewConstraints

open Linear Layout Scene

namespace Session

/-- A step of two runs of which the second reads more frames than the first. -/
inductive Paired (K : Type) where
  /-- A step of both runs. -/
  | shared (step : Step K)
  /-- The second run reads the frame of a view. -/
  | frame (view : ViewId)
  /-- The second run reads the frame of a view's safe area. -/
  | safeFrame (view : ViewId)

namespace Paired

variable {K : Type}

/-- What the first run does. -/
def sparing? : Paired K → Option (Step K)
  | shared step => some step
  | frame _ | safeFrame _ => none

/-- What the second run does. -/
def reading : Paired K → Step K
  | shared step => step
  | frame view => .frame view
  | safeFrame view => .safeFrame view

end Paired

section

variable {K : Type} [Scalar K]

/-- The views whose frames a step reads; a view that is held already is not held again. -/
def Step.reads (s : Scene K) : Step K → List ViewId
  | .frame v | .safeFrame v => [v]
  | .frames => List.range s.views.length
  | .setPinned v true => if s.views[v]?.map View.isPinned = some false then [v] else []
  | _ => []

/-- What can be seen of a step. -/
structure Shown (K : Type) where
  answer : Answer K
  /-- The reports added to the log. -/
  reports : List (Event K)
  /-- The frames that the step reads. -/
  frames : List (Rect K)

/-- What is seen of a step. -/
def shown (s : Session K) (step : Step K) : Shown K where
  answer := (s.perform step).1
  reports := (s.perform step).2.scene.log.drop s.scene.log.length
  frames := (step.reads s.scene).map fun view => (s.scene.frame view).1

/-- Answers that are the same but for numbers of frames, which agree, and the frame a view that is
inspected was last given, which no diagnostic text shows. -/
def Answer.Agrees : Answer K → Answer K → Prop
  | .frame r, .frame r' | .safeFrame r, .safeFrame r' => r.Agrees r'
  | .frames rs, .frames rs' => List.Forall₂ Rect.Agrees rs rs'
  | .inspectedView v, .inspectedView w => v.Twin w
  | a, b => a = b

/-- Steps that show the same. -/
structure Shown.Agrees (a b : Shown K) : Prop where
  answer : a.answer.Agrees b.answer
  reports : a.reports = b.reports
  frames : List.Forall₂ Rect.Agrees a.frames b.frames

/-- Two sessions that differ in what was read of them only. -/
structure Twin (s t : Session K) : Prop where
  kept : s.kept = t.kept
  scene : s.scene.Twin t.scene

/-- The frames that a step reads in two sessions agree. -/
def FramesAgree (s t : Session K) (step : Step K) : Prop :=
  ∀ view ∈ step.reads s.scene, (s.scene.frame view).1.Agrees (t.scene.frame view).1

/-- The sessions that two runs reach from the same start. -/
def sparing (config : Config K) (steps : List (Paired K)) : Session K :=
  (start config).run (steps.filterMap Paired.sparing?)

def reading (config : Config K) (steps : List (Paired K)) : Session K :=
  (start config).run (steps.map Paired.reading)

end

variable {K : Type} [Scalar K] {s t : Session K}

theorem Answer.Agrees.refl (a : Answer K) : a.Agrees a := by
  cases a with
  | frame r | safeFrame r => exact fun q => .refl _
  | frames rs => exact List.forall₂_same.2 fun r _ q => .refl _
  | inspectedView v => exact View.Twin.refl v
  | _ => rfl

theorem Answer.Agrees.of_eq {a b : Answer K} (h : a = b) : a.Agrees b := h ▸ .refl a

omit [Scalar K] in
/-- Steps read the frames of the same views in twins: these depend on how many views there are and on
which of them are held. -/
theorem Twin.reads (h : s.Twin t) (step : Step K) : step.reads s.scene = step.reads t.scene := by
  cases step with
  | frames => exact congrArg List.range h.scene.views.length_eq
  | setPinned view enabled =>
    cases enabled with
    | false => rfl
    | true =>
      simp only [Step.reads]
      rw [h.scene.map_view view fun _ _ => View.Twin.isPinned]
  | _ => rfl

/-! ## Steps of twins -/

/-- Outcomes of a step in twins: the answers agree, and the sessions are twins still. -/
def Match (a b : Answer K × Session K) : Prop := a.1.Agrees b.1 ∧ a.2.Twin b.2

omit [Scalar K] in
theorem Twin.withScene (h : s.Twin t) {u u' : Scene K} (hu : u.Twin u') :
    (s.withScene u).Twin (t.withScene u') :=
  ⟨h.kept, hu⟩

theorem Twin.same (h : s.Twin t) {a b : Answer K} (hab : a = b) : Match (a, s) (b, t) :=
  ⟨.of_eq hab, h⟩

omit [Scalar K] in
theorem Twin.sameRecord (h : s.Twin t) : s.SameRecord t := ⟨h.kept, h.scene.constraints⟩

/-- Keeping a constraint answers with its record, which is the same in twins. -/
theorem Twin.answerKept (h : s.Twin t) (c : ConstraintId) :
    Match (s.answerKept c) (t.answerKept c) := by
  obtain ⟨same, record⟩ := h.sameRecord.answerKept c
  refine ⟨.of_eq same, record.kept, ?_⟩
  rw [answerKept_scene, answerKept_scene]
  exact h.scene

/-- A step about a kept constraint is about the same constraint in twins. -/
theorem Twin.withKept (h : s.Twin t) {place : Nat} {f g : ConstraintId → Answer K × Session K}
    (each : ∀ c, Match (f c) (g c)) : Match (s.withKept place f) (t.withKept place g) := by
  rw [Session.withKept, Session.withKept, h.kept]
  split
  · exact h.same rfl
  next c _ => exact each c

/-- A step about a view is about twin views, or about none in either session. -/
theorem Twin.withView (h : s.Twin t) {view : ViewId} {f g : View K → Answer K × Session K}
    (each : ∀ v w, s.scene.views[view]? = some v → t.scene.views[view]? = some w → v.Twin w →
      Match (f v) (g w)) : Match (s.withView view f) (t.withView view g) := by
  unfold Session.withView
  rcases h.scene.view view with ⟨hv, hw⟩ | ⟨v, w, hv, hw, hvw⟩
  · rw [hv, hw]
    exact h.same rfl
  · rw [hv, hw]
    exact each v w hv hw hvw

/-- A step about an engine is about twin engines, or about none in either session. -/
theorem Twin.withEngine (h : s.Twin t) {engine : EngineId} {f g : Engine K → Answer K × Session K}
    (each : ∀ e e' : Engine K, e.Twin e' → Match (f e) (g e')) :
    Match (s.withEngine engine f) (t.withEngine engine g) := by
  unfold Session.withEngine
  rcases h.scene.engine engine with ⟨he, hf⟩ | ⟨e, f, he, hf, hef⟩
  · rw [he, hf]
    exact h.same rfl
  · rw [he, hf]
    exact each e f hef

/-- An answered request, refused or not. -/
theorem Twin.attempt (h : s.Twin t) (place : Nat) (active : Bool) :
    Match (s.perform (.trySetActive place active)) (t.perform (.trySetActive place active)) := by
  unfold perform
  refine h.withKept fun c => ?_
  obtain ⟨same, twin⟩ := h.scene.trySetActive c active
  generalize s.scene.trySetActive c active = a at same twin ⊢
  generalize t.scene.trySetActive c active = b at same twin ⊢
  obtain ⟨answer, u⟩ := a
  obtain ⟨_, w⟩ := b
  cases same
  cases answer with
  | ok _ | error _ =>
    dsimp only at twin ⊢
    rw [twin.isActive]
    exact (h.withScene twin).same rfl

variable [CongruentScalar K]

/-- A block: its view is released first, then its statements are made. -/
theorem Twin.layout (h : s.Twin t) (view : ViewId) (statements : List (Statement K)) :
    Match (s.perform (.layout view statements)) (t.perform (.layout view statements)) := by
  simp only [perform, host_layout]
  have released := h.scene.setPinned view false fun on => absurd on Bool.false_ne_true
  obtain ⟨same, stated⟩ := Scene.Twin.stateAll view statements released
  rw [same]
  have twin := h.withScene stated
  obtain ⟨outcomes, record⟩ := twin.sameRecord.foldl_keepOutcome _ []
  refine ⟨.of_eq (congrArg Answer.block outcomes), record.kept, ?_⟩
  rw [foldl_keepOutcome_scene, foldl_keepOutcome_scene]
  exact twin.scene

/-- Rectangles that agree still do when the same insets are taken off them. -/
theorem insetBy_agrees {r r' : Rect K} (h : r.Agrees r') (insets : Insets K) :
    (r.insetBy insets).Agrees (r'.insetBy insets) := by
  intro q
  cases q with
  | left => exact CongruentScalar.add_congr (h .left) _
  | top => exact CongruentScalar.add_congr (h .top) _
  | width => exact CongruentScalar.sub_congr (CongruentScalar.sub_congr (h .width) _) _
  | height => exact CongruentScalar.sub_congr (CongruentScalar.sub_congr (h .height) _) _

/-- A step is answered alike by twins and leaves them twins, if the frames agree that it reads. Of all
steps only those that read a frame, or hold a view at the frame it is read at, look at what twins may
differ in. -/
theorem Twin.perform (h : s.Twin t) {step : Step K} (agree : FramesAgree s t step) :
    Match (s.perform step) (t.perform step) := by
  cases step with
  | addEngine config =>
    cases config with
    | error error => exact h.same rfl
    | ok config =>
      obtain ⟨same, twin⟩ := h.scene.addEngine config
      simp only [Session.perform]
      rw [same, h.scene.views.length_eq]
      exact (h.withScene twin).same rfl
  | config engine =>
    refine h.withEngine fun e f hef => ?_
    rw [hef.config]
    exact h.same rfl
  | addView engine name frame =>
    refine h.withEngine fun _ _ _ => ?_
    obtain ⟨same, twin⟩ := h.scene.insertView name engine frame .zero
    dsimp only [Scene.addView]
    rw [same, twin.map_view _ fun _ _ => View.Twin.isPinned]
    exact (h.withScene twin).same rfl
  | view view =>
    refine h.withView fun v w _ _ hvw => ?_
    rw [h.scene.priorityOf, hvw]
    exact h.same rfl
  | layout view statements => exact h.layout view statements
  | relate lhs relating =>
    simp only [Session.perform, host_relateAnchor]
    obtain ⟨same, twin⟩ := h.scene.state lhs relating
    rw [same]
    exact (h.withScene twin).answerKept _
  | make lhs relation rhs offset =>
    obtain ⟨same, twin⟩ := h.scene.relate lhs relation rhs offset
    simp only [Session.perform]
    rw [same]
    exact (h.withScene twin).answerKept _
  | makeFixed lhs value =>
    obtain ⟨same, twin⟩ := h.scene.relateNumber lhs value
    simp only [Session.perform]
    rw [same]
    exact (h.withScene twin).answerKept _
  | copy place => exact h.withKept fun c => h.answerKept c
  | setActive place active =>
    refine h.withKept fun c => ?_
    have twin := h.scene.setActive c active
    dsimp only
    rw [twin.isActive]
    exact (h.withScene twin).same rfl
  | trySetActive place active => exact h.attempt place active
  | setAllActive engine cs active =>
    refine h.withEngine fun _ _ _ => ?_
    rw [h.kept]
    have twin := h.withScene (Scene.Twin.setAllActive active (cs.filterMap fun p => t.kept[p]?) h.scene)
    refine twin.same (congrArg Answer.flags (List.map_congr_left fun place _ => ?_))
    exact twin.sameRecord.isActive place
  | constraints =>
    refine h.same (congrArg Answer.constraints ?_)
    rw [h.kept, h.sameRecord.keptState]
  | frame view =>
    refine h.withView fun _ _ _ _ _ => ?_
    exact ⟨agree view (.head _), h.withScene (h.scene.frame view)⟩
  | safeFrame view =>
    refine h.withView fun _ _ _ _ _ => ?_
    have twin := h.scene.frame view
    refine ⟨?_, h.withScene twin⟩
    have safe : (s.scene.safeFrame view).1.Agrees (t.scene.safeFrame view).1 := by
      unfold Scene.safeFrame
      dsimp only
      rw [twin.insets]
      exact insetBy_agrees (agree view (.head _)) _
    exact safe
  | frames =>
    have length := h.scene.views.length_eq
    refine ⟨?_, h.withScene ?_⟩
    · show List.Forall₂ Rect.Agrees (Session.readFrames _ _).1 (Session.readFrames _ _).1
      rw [readFrames_eq_map, readFrames_eq_map, ← length, List.forall₂_map_left_iff,
        List.forall₂_map_right_iff]
      exact List.forall₂_same.2 agree
    · rw [← length]
      exact h.scene.readFrames _
  | setInsets view insets =>
    refine h.withView fun _ _ _ _ _ => ?_
    have twin := h.scene.setInsets view insets
    dsimp only
    rw [twin.insets]
    exact (h.withScene twin).same rfl
  | setPinned view enabled =>
    refine h.withView fun v w hv hw hvw => ?_
    have twin := h.scene.setPinned view enabled fun on v' hv' unpinned => by
      refine agree view ?_
      rw [on, Step.reads, hv', Option.map_some, unpinned, if_pos rfl]
      exact .head _
    dsimp only
    rw [twin.map_view view fun _ _ => View.Twin.isPinned]
    exact (h.withScene twin).same rfl
  | compare a b => exact h.same rfl
  | offset anchor shifts =>
    refine h.same ?_
    rw [h.scene.nameOf]
  | inspectView view => exact h.withView fun v w _ _ hvw => ⟨hvw, h⟩
  | inspectConstraint place =>
    refine h.withKept fun c => ?_
    rw [h.scene.constraints]
    split <;> exact h.same rfl

omit [CongruentScalar K] in
/-- A session is a twin still when frames of the other are read. -/
theorem Twin.perform_frame (h : s.Twin t) (view : ViewId) :
    s.Twin (t.perform (.frame view)).2 ∧ s.Twin (t.perform (.safeFrame view)).2 := by
  have read : s.scene.Twin (t.scene.frame view).2 := (h.scene.symm.frame_left view).symm
  simp only [Session.perform, Session.withView]
  cases t.scene.views[view]? with
  | none => exact ⟨h, h⟩
  | some _ => exact ⟨⟨h.kept, read⟩, ⟨h.kept, read⟩⟩

/-! ## What is shown of twins -/

/-- A step shows the same in twins exactly if the frames agree that it reads. -/
theorem Twin.shown_agrees_iff (h : s.Twin t) (step : Step K) :
    (s.shown step).Agrees (t.shown step) ↔ FramesAgree s t step := by
  have frames : List.Forall₂ Rect.Agrees (s.shown step).frames (t.shown step).frames ↔
      FramesAgree s t step := by
    rw [Session.shown, Session.shown, ← h.reads, List.forall₂_map_left_iff,
      List.forall₂_map_right_iff, List.forall₂_same]
    rfl
  refine ⟨fun agree => frames.1 agree.frames, fun agree => ?_⟩
  obtain ⟨answer, twin⟩ := h.perform agree
  refine ⟨answer, ?_, frames.2 agree⟩
  rw [Session.shown, Session.shown, h.scene.log, twin.scene.log]

omit [CongruentScalar K] in
/-- The sparing run takes one step more, or none where only the other run reads. -/
theorem sparing_append (config : Config K) (steps : List (Paired K)) (pair : Paired K) :
    sparing config (steps ++ [pair]) =
      (pair.sparing?.map fun step => ((sparing config steps).perform step).2).getD
        (sparing config steps) := by
  rw [sparing, List.filterMap_append, run_append]
  cases pair <;> rfl

omit [CongruentScalar K] in
/-- The reading run takes one step more for every pair. -/
theorem reading_append (config : Config K) (steps : List (Paired K)) (pair : Paired K) :
    reading config (steps ++ [pair]) = ((reading config steps).perform pair.reading).2 := by
  rw [reading, List.map_append, run_append]
  rfl

/-- Wherever the runs have got to, their sessions are twins, if the frames agree that are read by the
steps they share. The induction is on the steps taken. -/
theorem twin_take (config : Config K) {steps : List (Paired K)}
    (agree : ∀ i step, steps[i]? = some (.shared step) →
      (sparing config (steps.take i)).Twin (reading config (steps.take i)) →
        FramesAgree (sparing config (steps.take i)) (reading config (steps.take i)) step) (i : Nat) :
    (sparing config (steps.take i)).Twin (reading config (steps.take i)) := by
  induction i with
  | zero => exact ⟨rfl, .refl _⟩
  | succ i ih =>
    rw [List.take_add_one]
    cases hpair : steps[i]? with
    | none =>
      rw [Option.toList_none, List.append_nil]
      exact ih
    | some pair =>
      rw [Option.toList_some, sparing_append, reading_append]
      cases pair with
      | shared step => exact (ih.perform (agree i step hpair ih)).2
      | frame view => exact (ih.perform_frame view).1
      | safeFrame view => exact (ih.perform_frame view).2

/-- Two runs take the same steps, and the second reads frames in between. Each step that they share
shows the same in both exactly if, whenever one of these steps reads a number, it is stale in neither
run, or stale in both and the same. -/
theorem shown_agree_iff (config : Config K) (steps : List (Paired K)) :
    (∀ i step, steps[i]? = some (.shared step) →
      ((sparing config (steps.take i)).shown step).Agrees
        ((reading config (steps.take i)).shown step)) ↔
    ∀ i step, steps[i]? = some (.shared step) →
      ∀ view ∈ step.reads (sparing config (steps.take i)).scene,
        SeenAlike (sparing config (steps.take i)).scene (reading config (steps.take i)).scene view := by
  have agree_iff {i : Nat}
      (twin : (sparing config (steps.take i)).Twin (reading config (steps.take i))) (step : Step K) :
      FramesAgree (sparing config (steps.take i)) (reading config (steps.take i)) step ↔
        ∀ view ∈ step.reads (sparing config (steps.take i)).scene,
          SeenAlike (sparing config (steps.take i)).scene
            (reading config (steps.take i)).scene view := by
    refine forall₂_congr fun view _ => twin.scene.frame_agrees_iff ?_ ?_ view
    · exact fun i e he => start_run_faithful config _ e (List.mem_of_getElem? he)
    · exact fun i e he => start_run_faithful config _ e (List.mem_of_getElem? he)
  constructor
  · intro shown i step hstep
    have twin := twin_take config (fun i step hstep twin =>
      (twin.shown_agrees_iff step).1 (shown i step hstep)) i
    exact (agree_iff twin step).1 ((twin.shown_agrees_iff step).1 (shown i step hstep))
  · intro alike i step hstep
    have twin := twin_take config (fun i step hstep twin =>
      (agree_iff twin step).2 (alike i step hstep)) i
    exact (twin.shown_agrees_iff step).2 ((agree_iff twin step).2 (alike i step hstep))

/-- A card that is read, released, constrained and held again, with its frame read in between. -/
def cardReadInBetween : List (Paired Rat) :=
  [.shared (.addView 0 "card" ⟨5, 6, 100, 50⟩),
    .shared (.frame 1),
    .shared (.setPinned 1 false),
    .frame 1,
    .shared (.relate ⟨1, .width, false⟩ (.equalConstant 80)),
    .safeFrame 1,
    .shared (.setPinned 1 true),
    .shared .frames]

/-- `shown_agree_iff` where the numbers that both runs read are stale in neither, but for those of the
unknowns that are not in use when the card is held again, which are stale in both and the same. -/
theorem shown_agree_iff_cardReadInBetween :
    ((sparing Config.standard (cardReadInBetween.take 6)).shown (.setPinned 1 true)).Agrees
      ((reading Config.standard (cardReadInBetween.take 6)).shown (.setPinned 1 true)) ∧
    ((sparing Config.standard (cardReadInBetween.take 7)).shown .frames).Agrees
      ((reading Config.standard (cardReadInBetween.take 7)).shown .frames) := by
  have shown := (shown_agree_iff .standard cardReadInBetween).2 <| by
    intro i step hstep
    match i, hstep with
    | 0, hstep | 1, hstep | 2, hstep | 4, hstep | 6, hstep | 7, hstep =>
      cases hstep
      decide +kernel
    | 3, hstep | 5, hstep => cases hstep
    | _ + 8, hstep => cases hstep
  exact ⟨shown 6 _ rfl, shown 7 _ rfl⟩

/-- A card that is released, constrained to have no width and held again, then relieved of the
constraint and asked for its old width. In between its frame is read once more. -/
def widthHeldAgain : List (Paired Rat) :=
  [.shared (.addView 0 "card" ⟨5, 6, 100, 50⟩),
    .shared (.frame 1),
    .shared (.setPinned 1 false),
    .frame 1,
    .shared (.relate ⟨1, .width, false⟩ (.equalConstant 0)),
    .shared (.setPinned 1 true),
    .shared (.setActive 0 false),
    .shared (.makeFixed ⟨1, .width, false⟩ 100),
    .shared (.trySetActive 1 true)]

/-- A reading in between decides whether a constraint can be made active later. -/
theorem isActive_apart :
    (sparing Config.standard widthHeldAgain).isActive 1 = false ∧
      (reading Config.standard widthHeldAgain).isActive 1 = true := by
  decide +kernel

end Session

end ViewConstraints

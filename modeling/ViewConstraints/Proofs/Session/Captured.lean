import ViewConstraints.Proofs.Scene.Captured
import ViewConstraints.Proofs.Session.Batch
import ViewConstraints.Proofs.Session.Described
import ViewConstraints.Proofs.Session.Restored

/-!
# Insets are captured when a constraint is made, in every state

The insets of a view stay until they are changed again (`run_insets`). A step asks for its constraints
at the insets of its own moment (`Session.demands`), and whatever a run does afterwards, among it any
change of insets and of activity, what it made is enforced as it was asked for
(`Session.insets_captured`).
-/

namespace ViewConstraints

open Linear Layout Scene

namespace Session

variable {K : Type} [Scalar K]

/-- What a step asks of the constraints it makes. -/
def demands (s : Session K) (step : Step K) : List (Demand K) :=
  (({} : Ledger K).record s step).demands

theorem demands_addView (s : Session K) (engine : EngineId) (name : String) (frame : Rect K) :
    s.demands (.addView engine name frame) = [] := by
  simp only [demands, Ledger.record]
  split <;> rfl

theorem demands_setPinned (s : Session K) (view : ViewId) (enabled : Bool) :
    s.demands (.setPinned view enabled) = [] := by
  cases enabled with
  | false => rfl
  | true =>
    simp only [demands, Ledger.record]
    split
    · rfl
    · split <;> rfl

/-- A step asks at the insets that the views have. Steps that relate nothing ask for nothing, and in a
block every statement is asked for at the insets before the block. -/
theorem demands_takes (s : Session K) (step : Step K) :
    ∀ d ∈ s.demands step, d.Takes s.scene.insets := by
  intro d hd
  cases step with
  | layout view statements =>
    obtain ⟨st, -, rfl⟩ := List.mem_map.1 hd
    exact demand_takes ..
  | relate lhs relating =>
    obtain rfl := List.mem_singleton.1 hd
    exact demand_takes ..
  | make lhs relation rhs offset =>
    obtain rfl := List.mem_singleton.1 hd
    exact ⟨rfl, rfl⟩
  | makeFixed lhs value =>
    obtain rfl := List.mem_singleton.1 hd
    rfl
  | addEngine config => cases config <;> cases hd
  | addView engine name frame =>
    rw [demands_addView] at hd
    cases hd
  | setPinned view enabled =>
    rw [demands_setPinned] at hd
    cases hd
  | _ => cases hd

/-- A step that changes no insets makes the constraints it asks for. The cases are those of a step. A
block releases its view before it asks, but a release changes no insets, so it asks at the insets that
were there before the step. -/
theorem perform_asks (s : Session K) (step : Step K)
    (other : ∀ view insets, step ≠ .setInsets view insets) :
    Asks (s.demands step) s.scene (s.perform step).2.scene := by
  have idle : Asks [] s.scene s.scene := .refl _
  cases step with
  | addEngine config =>
    cases config with
    | error error => exact idle
    | ok config => exact addEngine_asks ..
  | config engine | view engine | inspectView engine =>
    simp only [perform, withEngine, withView]
    split <;> exact idle
  | addView engine name frame =>
    rw [demands_addView]
    simp only [perform, withEngine]
    split
    · exact idle
    · exact insertView_asks ..
  | layout view statements =>
    simp only [perform, host_layout, foldl_keepOutcome_scene]
    have same (lhs : Anchor) (relating : Relating K) :
        (s.scene.setPinned view false).demand lhs relating = s.scene.demand lhs relating :=
      demand_congr (unpin_retains s.scene view).2 lhs relating
    have asked := (setPinned_asks s.scene view false).trans (stateAll_asks view statements _)
    simp only [same] at asked
    exact asked
  | relate lhs relating =>
    simp only [perform, host_relateAnchor, answerKept_scene]
    exact state_asks ..
  | make lhs relation rhs offset =>
    simp only [perform, answerKept_scene]
    exact relate_asks ..
  | makeFixed lhs value =>
    simp only [perform, answerKept_scene]
    exact relateNumber_asks ..
  | copy place =>
    simp only [perform, withKept]
    split
    · exact idle
    · rw [answerKept_scene]; exact idle
  | setActive place active =>
    simp only [perform, withKept]
    split
    · exact idle
    · exact setActive_asks ..
  | trySetActive place active =>
    simp only [perform, withKept]
    split
    · exact idle
    next c _ =>
      have tried : Asks [] s.scene (s.scene.trySetActive c active).2 :=
        .of_retains (trySetActive_retains s.scene c active) (trySetActive_views s.scene c active)
      generalize s.scene.trySetActive c active = r at tried ⊢
      obtain ⟨_ | _, scene⟩ := r <;> exact tried
  | setAllActive engine places active =>
    simp only [perform, withEngine]
    split
    · exact idle
    · exact setAllActive_asks ..
  | frame view | safeFrame view =>
    simp only [perform, withView]
    split
    · exact idle
    · exact .of_retains (frame_records _ _).retains (frame_records _ _).views
  | frames => exact .of_retains (readFrames_records _ _).retains (readFrames_records _ _).views
  | setInsets view insets => exact absurd rfl (other view insets)
  | setPinned view enabled =>
    rw [demands_setPinned]
    simp only [perform, withView]
    split
    · exact idle
    · exact setPinned_asks ..
  | constraints | compare a b | offset anchor shifts => exact idle
  | inspectConstraint place =>
    simp only [perform, withKept]
    split
    · exact idle
    · split <;> exact idle

/-- What a change of insets does, if the view exists. -/
theorem perform_setInsets {s : Session K} {view : ViewId} (known : view < s.scene.views.length)
    (insets : Insets K) :
    (s.perform (.setInsets view insets)).2 = s.withScene (s.scene.setInsets view insets) := by
  rw [perform, withView, List.getElem?_eq_getElem known]

/-- A step that does not change the insets of a view leaves them. -/
theorem perform_insets (s : Session K) {step : Step K} {view : ViewId}
    (known : view < s.scene.views.length) (kept : ∀ insets, step ≠ .setInsets view insets) :
    (s.perform step).2.scene.insets view = s.scene.insets view := by
  by_cases change : ∃ changed insets, step = .setInsets changed insets
  · obtain ⟨changed, insets, rfl⟩ := change
    have apart : view ≠ changed := fun same => kept insets (same ▸ rfl)
    rcases Nat.lt_or_ge changed s.scene.views.length with found | absent
    · rw [perform_setInsets found]
      exact ((setInsets_only s.scene found insets).given view).trans (if_neg apart)
    · rw [perform, withView, List.getElem?_eq_none absent]
  · exact (perform_asks s step fun w insets same => change ⟨w, insets, same⟩).insets view known

/-- The insets of a view stay until they are changed. -/
theorem run_insets {view : ViewId} (steps : List (Step K)) (s : Session K)
    (known : view < s.scene.views.length) (kept : ∀ insets, .setInsets view insets ∉ steps) :
    (s.run steps).scene.insets view = s.scene.insets view := by
  induction steps generalizing s with
  | nil => rfl
  | cons step steps ih =>
    have grown : s.scene.views.length ≤ (s.perform step).2.scene.views.length := by
      simpa using (perform_grows s step).views.length_le
    have later := ih (s.perform step).2 (Nat.lt_of_lt_of_le known grown) fun insets hmem =>
      kept insets (List.mem_cons_of_mem _ hmem)
    show ((s.perform step).2.run steps).scene.insets view = _
    rw [later]
    exact perform_insets s known fun insets same => kept insets (same ▸ List.mem_cons_self)

/-- At `u` the constraints that a step made are enforced as it asked for them, at the insets of its
moment. -/
structure Captured (s : Session K) (step : Step K) (u : Scene K) : Prop where
  takes : ∀ d ∈ s.demands step, d.Takes s.scene.insets
  /-- Every constraint that the step made is one that it asked for. -/
  count : (s.perform step).2.scene.constraints.length =
    s.scene.constraints.length + (s.demands step).length
  enforced : ∀ k d, (s.demands step)[k]? = some d →
    ∃ r, Enforces u (s.scene.constraints.length + k) d r

/-- What a step asks for is captured at the insets of that moment, whatever the steps after it do. -/
theorem captured {s : Session K} (hs : Numbered [] s.scene) (step : Step K)
    (later : List (Step K)) : Captured s step (s.run (step :: later)).scene := by
  have numbered : Numbered [] (s.run (step :: later)).scene := (run_evolves (step :: later) hs).1
  have grown : Grows (s.perform step).2.scene (s.run (step :: later)).scene := run_grows later _
  by_cases change : ∃ view insets, step = .setInsets view insets
  · obtain ⟨view, insets, rfl⟩ := change
    have nothing : s.demands (.setInsets view insets) = [] := rfl
    refine ⟨demands_takes s _, ?_, fun k d hd => ?_⟩
    · rw [nothing]
      simp only [perform, withView]
      split <;> rfl
    · rw [nothing] at hd
      cases hd
  · have asked := perform_asks s step fun view insets same => change ⟨view, insets, same⟩
    refine ⟨demands_takes s step, asked.length, fun k d hd => ?_⟩
    obtain ⟨r, hr, forms⟩ := asked.constraint hd
    obtain ⟨r', hr', same⟩ := grown.constraint hr
    have linear : r'.linear = r.linear := congrArg (fun i => i.2.2) same
    exact ⟨r', numbered.enforces hr' (linear ▸ forms)⟩

/-- A change of the insets of a view changes nothing but these insets and what the anchors of its safe
area stand for, and they stay until they are changed again. What a step makes, it makes at the insets
of its moment, and after whatever follows, it is enforced in this form and in no other: as long as no
solver fails, exactly while it is active. Anchors that were looked up before stand for what they stand
for now. -/
theorem insets_captured (config : Config K) (steps : List (Step K)) :
    let s := (start config).run steps
    (∀ view insets, view < s.scene.views.length →
      let changed := s.run [.setInsets view insets]
      InsetsOnly s.scene view insets changed.scene ∧
      ∀ later : List (Step K), (∀ i, .setInsets view i ∉ later) →
        (changed.run later).scene.insets view = insets) ∧
    (∀ step later,
      let u := (s.run (step :: later)).scene
      Captured s step u ∧
      (Unfailing config (steps ++ step :: later) → HoldsActive u)) ∧
    PresentRelates s.scene := by
  intro s
  refine ⟨fun view insets known => ?_, fun step later => ⟨?_, fun internal r hr i => ?_⟩,
    present_relates s.scene⟩
  · have change : (s.run [.setInsets view insets]).scene = s.scene.setInsets view insets :=
      congrArg Session.scene (perform_setInsets known insets)
    have only := setInsets_only s.scene known insets
    rw [← change] at only
    refine ⟨only, fun later kept => ?_⟩
    have still : view < (s.run [.setInsets view insets]).scene.views.length := by rwa [only.length]
    exact (run_insets later _ still kept).trans ((only.given view).trans (if_pos rfl))
  · exact captured (run_evolves steps (start_evolves config).1).1 step later
  · have accounted := start_run_accounted config (steps ++ step :: later) internal
    rw [run_append] at accounted
    obtain ⟨c, hc⟩ := List.mem_iff_getElem?.1 hr
    exact accounted.linear_mem_heldBy_iff hc i

/-- A card that is not held at its frame. -/
def freeCard : List (Step Rat) := [.addView 0 "card" ⟨0, 0, 100, 50⟩, .layout 1 []]

/-- The insets of the root change, a constraint of the card is switched off and on again, and another is
made and switched on. -/
def afterChange : List (Step Rat) :=
  [.setInsets 0 ⟨20, 4, 10, 4⟩,
    .setActive 1 false,
    .make ⟨1, .leading, false⟩ .equal ⟨0, .leading, true⟩ 0,
    .setActive 1 true,
    .setActive 2 true]

/-- `insets_captured` where the card is given its top and its bottom by the safe area of the root, before
the insets change. The top and the height stay between the bars there were; the leading edge, which is
given afterwards, is at the new insets. -/
theorem insets_captured_freeCard :
    let s := (start Config.standard).run freeCard
    let edges : Step Rat := .layout 1 [⟨.top, .equalTo (.place ⟨⟨0, .top, true⟩, []⟩), true⟩,
      ⟨.bottom, .equalTo (.place ⟨⟨0, .bottom, true⟩, []⟩), true⟩]
    let u := (s.run (edges :: afterChange)).scene
    let changed := s.run [.setInsets 0 ⟨20, 4, 10, 4⟩]
    InsetsOnly s.scene 0 ⟨20, 4, 10, 4⟩ changed.scene ∧
    (changed.run [edges]).scene.insets 0 = ⟨20, 4, 10, 4⟩ ∧
    Captured s edges u ∧
    HoldsActive u ∧
    u.constraints.map (fun r => r.active) = [true, true, true] ∧
    (u.frame 1).1.x = 4 ∧ (u.frame 1).1.y = 44 ∧ (u.frame 1).1.height = 812 - 34 - 44 ∧
    PresentRelates s.scene := by
  intro s edges u changed
  obtain ⟨changes, makes, present⟩ := insets_captured Config.standard freeCard
  obtain ⟨only, stays⟩ := changes 0 ⟨20, 4, 10, 4⟩ (by decide +kernel)
  obtain ⟨captured, held⟩ := makes edges afterChange
  have none : (start Config.standard).refusals (freeCard ++ edges :: afterChange) = [] := by
    decide +kernel
  have unfailing : Unfailing Config.standard (freeCard ++ edges :: afterChange) := by
    intro cause hcause
    rw [none] at hcause
    cases hcause
  exact ⟨only, stays [edges] (by simp [edges]), captured, held unfailing, by decide +kernel,
    by decide +kernel, by decide +kernel, by decide +kernel, present⟩

end Session

end ViewConstraints

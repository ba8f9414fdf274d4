import ViewConstraints.Proofs.Scene.Demands
import ViewConstraints.Proofs.Session.Runs

/-!
# The system that is solved is the one described

`Ledger.after` enters into a ledger what the steps of a session ask for. After any run without a
failure of a solver from within, an assignment of numbers satisfies what a solver holds exactly if
every active constraint is as asked and every accepted pin holds its view at its frame
(`Session.held_iff_described`).
-/

namespace ViewConstraints

open Linear Layout Scene

/-! ## What the steps of a session ask for -/

section

variable {K : Type} [Scalar K]

/-- Enters what a step asks for. A view that is held again is entered with the frame it has; one that
is held already stays at its frame. -/
def Ledger.record (l : Ledger K) (s : Session K) : Session.Step K → Ledger K
  | .addEngine (.ok config) => l.place ⟨0.0, 0.0, config.rootSize.width, config.rootSize.height⟩
  | .addView engine _ frame => if s.scene.engines[engine]?.isSome then l.place frame else l
  | .layout view statements =>
    l.ask (statements.map fun st => s.scene.demand (st.property.anchor view) st.relating)
  | .relate lhs relating => l.ask [s.scene.demand lhs relating]
  | .make lhs relation rhs offset => l.ask [s.scene.demandBetween lhs relation rhs offset]
  | .makeFixed lhs value => l.ask [s.scene.demandFixed lhs value]
  | .setPinned view true =>
    match s.scene.views[view]? with
    | none => l
    | some v => if v.isPinned then l else l.hold view (s.scene.frame view).1
  | _ => l

/-- The ledger after steps of a session. -/
def Ledger.after (l : Ledger K) (s : Session K) : List (Session.Step K) → Ledger K
  | [] => l
  | step :: rest => (l.record s step).after (s.perform step).2 rest

/-- The ledger of a new session: its root view is held at the size of the configuration. -/
def Ledger.start (config : Config K) : Ledger K :=
  ({} : Ledger K).place ⟨0.0, 0.0, config.rootSize.width, config.rootSize.height⟩

end

/-! ## What is in force is what was asked for -/

/-- An assignment gives an engine's views the rectangles asked for: every active constraint is as it
asks, and every accepted pin holds its view at its frame. -/
structure AsAsked (l : Ledger Rat) (s : Scene Rat) (i : EngineId) (x : Variable → Rat) : Prop where
  constraints : ∀ (c : ConstraintId) (r : AnchorConstraint Rat) (d : Demand Rat),
    s.constraints[c]? = some r → r.engine = i → r.active = true → l.demands[c]? = some d → d.Holds x
  pins : ∀ (view : ViewId) (v : View Rat) (frame : Rect Rat),
    s.views[view]? = some v → v.engine = i → l.frames[view]? = some frame →
      ∀ q ∈ v.accepted, x ⟨view, q⟩ = frame.component q

variable {l : Ledger Rat} {s : Scene Rat}

/-- The linear form of a constraint means what the ledger has for it. -/
theorem Describes.demand (h : Describes l s) {c : ConstraintId} {r : AnchorConstraint Rat}
    (hr : s.constraints[c]? = some r) :
    ∃ d, l.demands[c]? = some d ∧ ∀ x, r.linear.Holds x ↔ d.Holds x := by
  obtain ⟨hlen, hget⟩ := List.forall₂_iff_get.1 h.demands
  obtain ⟨hc, rfl⟩ := List.getElem?_eq_some_iff.1 hr
  have hc' : c < (s.constraints.map AnchorConstraint.linear).length := by simpa using hc
  refine ⟨_, List.getElem?_eq_getElem (hlen ▸ hc'), ?_⟩
  simpa using hget c hc' (hlen ▸ hc')

/-- A part of a frame is a component of it. -/
theorem component_of_mem_frameParts {K : Type} {frame : Rect K} {part : Quantity × K}
    (h : part ∈ frameParts frame) : part.2 = frame.component part.1 := by
  simp only [frameParts, List.mem_cons, List.not_mem_nil, or_false] at h
  rcases h with rfl | rfl | rfl | rfl <;> rfl

/-- The pins on record for a view hold it at the frame in the ledger. -/
theorem Describes.pinned_iff (h : Describes l s) {view : ViewId} {v : View Rat} {frame : Rect Rat}
    (hv : s.views[view]? = some v) (hf : l.frames[view]? = some frame) (x : Variable → Rat) :
    (∀ c ∈ v.pinned, c.Holds x) ↔ ∀ q ∈ v.accepted, x ⟨view, q⟩ = frame.component q := by
  have pins := h.pins view frame hf
  rw [pinsOf, hv, Option.map_some, Option.getD_some] at pins
  have each (c : Constraint Rat) (hc : c ∈ v.pinned) :
      c.Holds x ↔ ∀ q ∈ c.expression.terms.map fun t => t.unknown.quantity,
        x ⟨view, q⟩ = frame.component q := by
    obtain ⟨id, part, hpart, rfl⟩ := pins c hc
    rw [pinConstraint, Constraint.equalling_holds, Expression.eval_ofVariable,
      component_of_mem_frameParts hpart]
    simp [Constraint.equalling, Expression.subConstant, Expression.ofVariable]
  constructor
  · intro hall q hq
    obtain ⟨c, hc, hq⟩ := List.mem_flatMap.1 hq
    exact (each c hc).1 (hall c hc) q hq
  · intro hall c hc
    exact (each c hc).2 fun q hq => hall q (List.mem_flatMap.2 ⟨c, hc, hq⟩)

/-- What is in force for an engine holds where everything is as asked, and only there. -/
theorem Describes.inForce_iff (h : Describes l s) (i : EngineId) (x : Variable → Rat) :
    (∀ c ∈ s.inForce i, c.Holds x) ↔ AsAsked l s i x := by
  constructor
  · intro hall
    refine ⟨?_, ?_⟩
    · intro c r d hr hi hactive hd
      obtain ⟨d', hd', hmeans⟩ := h.demand hr
      rw [hd] at hd'
      cases hd'
      exact (hmeans x).1 (hall _ (hi ▸ mem_inForce (List.mem_of_getElem? hr) hactive))
    · intro view v frame hv hi hf
      refine (h.pinned_iff hv hf x).1 fun c hc => hall c (List.mem_append_right _ ?_)
      exact List.mem_flatMap.2
        ⟨v, List.mem_filter.2 ⟨List.mem_of_getElem? hv, decide_eq_true hi⟩, hc⟩
  · rintro ⟨constraints, pins⟩ c hc
    rcases List.mem_append.1 hc with hc | hc
    · obtain ⟨r, hr, rfl⟩ := List.mem_map.1 hc
      obtain ⟨hr, hcond⟩ := List.mem_filter.1 hr
      obtain ⟨hi, hactive⟩ := of_decide_eq_true hcond
      obtain ⟨n, hn⟩ := List.mem_iff_getElem?.1 hr
      obtain ⟨d, hd, hmeans⟩ := h.demand hn
      exact (hmeans x).2 (constraints n r d hn hi hactive hd)
    · obtain ⟨v, hv, hc⟩ := List.mem_flatMap.1 hc
      obtain ⟨hv, hi⟩ := List.mem_filter.1 hv
      obtain ⟨view, hview⟩ := List.mem_iff_getElem?.1 hv
      have hlt : view < l.frames.length := h.frames ▸ (List.getElem?_eq_some_iff.1 hview).1
      have hf := List.getElem?_eq_getElem hlt
      exact (h.pinned_iff hview hf x).2 (pins view v _ hview (of_decide_eq_true hi) hf) c hc

namespace Session

variable {l : Ledger Rat}

/-- A step keeps the scene as the ledger says, refused requests included: what was asked for
enters the ledger with the request, and whether it is enforced is left to the flags and the pins
on record. -/
theorem perform_describes {s : Session Rat} (h : Describes l s.scene) (step : Step Rat) :
    Describes (l.record s step) (s.perform step).2.scene := by
  cases step with
  | addEngine config =>
    cases config with
    | error error => exact h
    | ok config => exact h.addEngine config
  | config engine | view engine | inspectView engine =>
    simp only [perform, withEngine, withView]
    split <;> exact h
  | addView engine name frame =>
    simp only [perform, withEngine, Ledger.record]
    cases s.scene.engines[engine]? with
    | none => exact h
    | some e => exact h.insertView name engine frame _
  | layout view statements =>
    simp only [perform, host_layout, foldl_keepOutcome_scene, Ledger.record]
    have same (lhs : Anchor) (relating : Relating Rat) :
        (s.scene.setPinned view false).demand lhs relating = s.scene.demand lhs relating :=
      demand_congr (unpin_retains s.scene view).2 lhs relating
    have asked := (h.release view).asked (stateAll_asks view statements _) (stateAll_views ..)
    simp only [same] at asked
    exact asked
  | relate lhs relating =>
    simp only [perform, host_relateAnchor, answerKept_scene]
    exact h.asked (state_asks ..) (state_views ..)
  | make lhs relation rhs offset =>
    simp only [perform, answerKept_scene]
    exact h.asked (relate_asks ..) rfl
  | makeFixed lhs value =>
    simp only [perform, answerKept_scene]
    exact h.asked (relateNumber_asks ..) rfl
  | copy place =>
    simp only [perform, withKept]
    split
    · exact h
    · rw [answerKept_scene]; exact h
  | setActive place active =>
    simp only [perform, withKept]
    split
    · exact h
    · exact h.retained (setActive_retains _ _ _)
  | trySetActive place active =>
    simp only [perform, withKept]
    split
    · exact h
    next c _ =>
      have tried := h.retained (trySetActive_retains s.scene c active)
      generalize s.scene.trySetActive c active = r at tried ⊢
      obtain ⟨_ | _, scene⟩ := r <;> exact tried
  | setAllActive engine places active =>
    simp only [perform, withEngine]
    split
    · exact h
    · exact h.retained (setAllActive_retains active _ _)
  | frame view | safeFrame view =>
    simp only [perform, withView]
    split
    · exact h
    · exact h.retained (frame_records _ _).retains
  | frames => exact h.retained (readFrames_records _ _).retains
  | setInsets view insets =>
    simp only [perform, withView]
    split
    · exact h
    · exact h.retained (retains_modifyView _ _ fun _ => List.Subset.refl _)
  | setPinned view enabled =>
    simp only [perform, withView]
    cases hv : s.scene.views[view]? with
    | none => cases enabled <;> simpa only [Ledger.record, hv] using h
    | some v =>
      cases enabled with
      | true => simpa only [Ledger.record, hv, withScene] using h.hold hv
      | false => exact h.release view
  | constraints | compare a b | offset anchor shifts => exact h
  | inspectConstraint place =>
    simp only [perform, withKept]
    split
    · exact h
    · split <;> exact h

/-- A ledger that describes the scene before a run describes it after, kept up step by step. -/
theorem run_describes (steps : List (Step Rat)) {l : Ledger Rat} {s : Session Rat}
    (h : Describes l s.scene) : Describes (l.after s steps) (s.run steps).scene := by
  induction steps generalizing l s with
  | nil => exact h
  | cons step steps ih => exact ih (perform_describes h step)

/-- A session starts as its ledger does, with the root of the first engine held and no demands. -/
theorem start_describes (config : Config Rat) :
    Describes (Ledger.start config) (start config).scene := by
  have nothing : Describes {} (Scene.empty : Scene Rat) := ⟨.nil, rfl, nofun⟩
  exact nothing.addEngine config

/-- After any run without a failure of a solver from within, what each engine's solver holds is
satisfied by an assignment of numbers exactly if the assignment is as the ledger of the run asks of
that engine. The ledger has an entry for every constraint and every view. -/
theorem held_iff_described (config : Config Rat) (steps : List (Step Rat))
    (internal : ∀ cause ∈ (start config).refusals steps, cause.isInternal = false) :
    let s := ((start config).run steps).scene
    let l := (Ledger.start config).after (start config) steps
    l.demands.length = s.constraints.length ∧ l.frames.length = s.views.length ∧
    ∀ (i : EngineId) (e : Scene.Engine Rat), s.engines[i]? = some e → ∀ x : Variable → Rat,
      (∀ c ∈ e.solver.constraints, c.Holds x) ↔ AsAsked l s i x := by
  intro s l
  have described : Describes l s := run_describes steps (start_describes config)
  refine ⟨?_, described.frames.symm, ?_⟩
  · have h := described.demands.length_eq
    rw [List.length_map] at h
    exact h.symm
  · intro i e he x
    rw [← described.inForce_iff]
    have hheld := ((held_perm_inForce config steps internal).1 i e he).1
    exact ⟨fun h c hc => h c (hheld.mem_iff.2 hc), fun h c hc => h c (hheld.mem_iff.1 hc)⟩

/-- A card laid out in the safe area, with one anchor of it related to another, while the insets of
the root view change between two constraints. -/
def cardInSafeArea : List (Step Rat) :=
  [.addView 0 "card" ⟨0, 0, 100, 50⟩,
    .layout 1 [⟨.leading, .equalTo (.place ⟨⟨0, .leading, true⟩, [.plus 16]⟩), true⟩],
    .setInsets 0 ⟨20, 4, 0, 4⟩,
    .layout 1 [⟨.top, .equalTo (.place ⟨⟨0, .top, true⟩, []⟩), true⟩,
      ⟨.width, .equalTo (.place ⟨⟨1, .height, false⟩, [.plus 50]⟩), true⟩,
      ⟨.height, .equalConstant 40, true⟩],
    .frame 1]

/-- `held_iff_described` where constraints were made at different insets. -/
theorem held_iff_described_cardInSafeArea :
    ((start Config.standard).refusals cardInSafeArea = []) ∧
    let s := ((start Config.standard).run cardInSafeArea).scene
    let l := (Ledger.start Config.standard).after (start Config.standard) cardInSafeArea
    l.demands.length = s.constraints.length ∧ l.frames.length = s.views.length ∧
    ∀ (i : EngineId) (e : Scene.Engine Rat), s.engines[i]? = some e → ∀ x : Variable → Rat,
      (∀ c ∈ e.solver.constraints, c.Holds x) ↔ AsAsked l s i x :=
  ⟨by decide +kernel, held_iff_described .standard cardInSafeArea (by decide +kernel)⟩

end Session

end ViewConstraints

import ViewConstraints.Proofs.Scene.Isolation
import ViewConstraints.Proofs.Simplex.Mentions

/-!
# Insets are captured when a constraint is made

A constraint is made in the linear form of what it asks for at the present insets (`Asks`), and enforced
in this form and in no other (`Enforces`). Apart from a change of insets no request changes the insets
of a view, and a change of insets changes nothing else (`setInsets_only`).

Anchors and the anchors cached for properties do not capture anything. However long ago they were looked
up, what is made of them takes the insets of its own moment (`present_relates`).
-/

namespace ViewConstraints

open Linear Layout

section

variable {K : Type}

/-- A demand has the insets of its views from `insets`. -/
def Demand.Takes (insets : ViewId → Insets K) : Demand K → Prop
  | .between lhs lhsInsets _ rhs rhsInsets _ =>
    lhsInsets = insets lhs.view ∧ rhsInsets = insets rhs.view
  | .fixed lhs lhsInsets _ => lhsInsets = insets lhs.view

end

namespace Scene

variable {K : Type} [Scalar K] {s t u : Scene K}

/-- What is asked for is asked for at the present insets. -/
theorem demand_takes (s : Scene K) (lhs : Anchor) (relating : Relating K) :
    (s.demand lhs relating).Takes s.insets := by
  cases relating with
  | equalTo target =>
    cases target with
    | place p => exact ⟨rfl, rfl⟩
    | number value => rfl
  | greaterThanOrEqualTo | lessThanOrEqualTo | explicit => exact ⟨rfl, rfl⟩
  | equalConstant value => rfl

/-! ## A change of insets -/

/-- The insets of one view were changed, and nothing else. -/
structure InsetsOnly (s : Scene K) (view : ViewId) (insets : Insets K) (t : Scene K) : Prop where
  engines : t.engines = s.engines
  constraints : t.constraints = s.constraints
  nextLinear : t.nextLinear = s.nextLinear
  log : t.log = s.log
  views : t.views.map (fun v => (v.name, v.engine, v.frame, v.pins)) =
    s.views.map fun v => (v.name, v.engine, v.frame, v.pins)
  /-- Every view has the frame that it had. -/
  frames : ∀ w, (t.frame w).1 = (s.frame w).1
  given : ∀ w, t.insets w = if w = view then insets else s.insets w
  /-- The safe area of every view lies in the frame that the view had. -/
  safeFrames : ∀ w, (t.safeFrame w).1 =
    (s.frame w).1.insetBy (if w = view then insets else s.insets w)
  /-- Only the anchors of the view's safe area have come to stand for something else. -/
  expressions : ∀ a : Anchor, t.expressionOf a =
    if a.safe = true ∧ a.view = view then a.expression insets else s.expressionOf a

theorem InsetsOnly.length {view : ViewId} {insets : Insets K} (h : InsetsOnly s view insets t) :
    t.views.length = s.views.length := by
  simpa using congrArg List.length h.views

/-- The frame of a view depends on its engine. -/
theorem frame_congr (engines : t.engines = s.engines)
    (owners : ∀ w : ViewId, t.views[w]?.map View.engine = s.views[w]?.map View.engine) (w : ViewId) :
    (t.frame w).1 = (s.frame w).1 := by
  have owner := owners w
  cases hv : s.views[w]? with
  | none =>
    rw [hv, Option.map_none, Option.map_eq_none_iff] at owner
    rw [Scene.frame, Scene.frame, hv, owner]
    rfl
  | some v =>
    rw [hv] at owner
    obtain ⟨v', hv', same⟩ := Option.map_eq_some_iff.1 owner
    rw [frame_eq_of_view hv, frame_eq_of_view hv', engines, same]

/-- An anchor of the view itself takes no account of insets. -/
theorem expression_of_unsafe {a : Anchor} (h : a.safe = false) (i j : Insets K) :
    a.expression i = a.expression j := by
  have none (i : Insets K) : a.insets i = .zero := by
    rw [Anchor.insets, h]
    rfl
  unfold Anchor.expression
  rw [none, none]

/-- Setting the insets of a view changes them and nothing else; the safe area is derived from them
when it is asked for. -/
theorem setInsets_only (s : Scene K) {view : ViewId} (known : view < s.views.length)
    (insets : Insets K) : InsetsOnly s view insets (s.setInsets view insets) := by
  have found (w : ViewId) : (s.setInsets view insets).views[w]? =
      if view = w then s.views[w]?.map fun v => { v with insets } else s.views[w]? := by
    rw [setInsets, modifyView, List.getElem?_modify]
    split
    · rfl
    · rw [Option.map_eq_map, Option.map_id_fun', id]
  have given (w : ViewId) : (s.setInsets view insets).insets w =
      if w = view then insets else s.insets w := by
    rw [Scene.insets, found]
    by_cases same : w = view
    · rw [if_pos same.symm, if_pos same, same, List.getElem?_eq_getElem known]
      rfl
    · rw [if_neg (Ne.symm same), if_neg same]
      rfl
  have frames : ∀ w, ((s.setInsets view insets).frame w).1 = (s.frame w).1 := by
    refine frame_congr rfl fun w => ?_
    rw [found]
    split
    · rw [Option.map_map]; rfl
    · rfl
  refine ⟨rfl, rfl, rfl, rfl,
    map_modify_of_eq (f := fun v : View K => { v with insets }) (fun _ => rfl) _ _,
    frames, given, fun w => ?_, fun a => ?_⟩
  · rw [safeFrame_eq, frames, given]
  · rw [expressionOf, given, expressionOf]
    cases safe : a.safe with
    | false => simpa using expression_of_unsafe safe _ _
    | true => by_cases own : a.view = view <;> simp [own]

/-! ## Requests that ask for nothing -/

/-- Pinning a view touches its pins only. -/
theorem pin_insets (s : Scene K) (view w : ViewId) : (s.pin view).insets w = s.insets w := by
  refine pin_induction (Q := fun t => t.insets w = s.insets w) (fun _ acc => acc.2.views = s.views)
    (fun _ => rfl) (fun _ _ _ => rfl) ?_ ?_
  · exact fun v _ acc part _ h => (pinPart_records view v.name v.engine acc part).views.trans h
  · exact fun _ _ _ pins t h => (insets_modifyView t view
      (f := fun v => { v with pins := some pins }) (fun _ => rfl) w).trans (insets_of_views h w)

/-- Setting the flag of a view asks for no constraint that is on record as one. -/
theorem setPinned_asks (s : Scene K) (view : ViewId) (enabled : Bool) :
    Asks [] s (s.setPinned view enabled) := by
  have steady := setPinned_steady s view enabled
  refine .of_linears steady.linears (Nat.le_of_eq steady.views_length.symm) fun w _ => ?_
  cases enabled with
  | false => exact (unpin_retains s view).2 w
  | true =>
    rw [setPinned, if_pos rfl]
    have framed := insets_modifyView (s.frame view).2 view
      (f := fun v => { v with frame := (s.frame view).1 }) (fun _ => rfl) w
    exact (pin_insets _ view w).trans (framed.trans (insets_frame s view w))

/-- A new view is pinned, but nothing is asked for between anchors, and the other views keep
their insets. -/
theorem insertView_asks (s : Scene K) (name : String) (engine : EngineId) (frame : Rect K)
    (insets : Insets K) : Asks [] s (s.insertView name engine frame insets).2 := by
  obtain ⟨constraints, views, -⟩ := pin_pins
    { s with views := s.views ++ [{ name, engine, insets, frame }] } s.views.length
  refine .of_linears (congrArg _ constraints) ?_ fun w hw => ?_
  · rw [insertView, views, List.length_append]
    exact Nat.le_add_right _ _
  · refine (pin_insets _ _ w).trans ?_
    rw [Scene.insets, Scene.insets, List.getElem?_append_left hw]

/-- A new engine asks for no more than its root view does. -/
theorem addEngine_asks (s : Scene K) (config : Config K) : Asks [] s (s.addEngine config).2 := by
  have h := insertView_asks { s with engines := s.engines ++ [Engine.create config s.views.length] }
    "root" s.engines.length ⟨0.0, 0.0, config.rootSize.width, config.rootSize.height⟩
    config.safeAreaInsets
  exact ⟨h.made, h.views, h.insets⟩

/-- Requests for activity make no constraint. -/
theorem setAllActive_asks (active : Bool) (cs : List ConstraintId) (s : Scene K) :
    Asks [] s (s.setAllActive cs active) := by
  induction cs generalizing s with
  | nil => exact .refl s
  | cons c cs ih => exact (setActive_asks s c active).trans (ih _)

/-! ## What solvers are given -/

/-- A solver that grants a constraint holds it. -/
theorem Numbered.mem_heldBy_addLinear {passing : List (Constraint K)} (h : Numbered passing s)
    {i : EngineId} (hi : i < s.engines.length) {c : Constraint K}
    (granted : (s.addLinear i c).1 = .ok ()) : c ∈ (s.addLinear i c).2.heldBy i := by
  obtain ⟨e, he⟩ : ∃ e, s.engines[i]? = some e := ⟨_, List.getElem?_eq_getElem hi⟩
  have keyed := h.numbering.keyed e (List.mem_of_getElem? he)
  simp only [Scene.addLinear, he, Engine.add] at granted ⊢
  rw [heldBy_set hi, if_pos rfl]
  cases hc : e.solver.holds c.id with
  | true =>
    rw [Simplex.Solver.addConstraint_of_holds hc] at granted
    cases granted
  | false =>
    obtain ⟨-, held⟩ | ⟨refused, -⟩ | ⟨failure, refused⟩ :=
      Simplex.Solver.addConstraint_outcome keyed hc
    · exact held.mem_iff.2 List.mem_cons_self
    · rw [refused] at granted
      cases granted
    · rw [refused] at granted
      cases granted

/-- A constraint is enforced in the form of a demand, and in no other. -/
structure Enforces (u : Scene K) (c : ConstraintId) (d : Demand K) (r : AnchorConstraint K) :
    Prop where
  record : u.constraints[c]? = some r
  forms : d.Forms r.linear
  /-- Where a request for the constraint to be active is granted, its engine comes to hold this form. -/
  granted : r.active = false → (u.trySetActive c true).1 = .ok () →
    r.linear ∈ (u.trySetActive c true).2.heldBy r.engine
  /-- No engine holds anything else under the number of the constraint. -/
  alone : ∀ i, ∀ x ∈ u.heldBy i, x.id = r.linear.id → x = r.linear

/-- A constraint on record is enforced in the form it has there: it is what its engine is given, and
its number belongs to no other constraint. -/
theorem Numbered.enforces (h : Numbered [] u) {c : ConstraintId} {d : Demand K}
    {r : AnchorConstraint K} (record : u.constraints[c]? = some r) (forms : d.Forms r.linear) :
    Enforces u c d r := by
  have known := List.mem_of_getElem? record
  refine ⟨record, forms, fun inactive granted => ?_, fun i x hx same => ?_⟩
  · have switching := trySetActive_switching u c true
    generalize u.trySetActive c true = a at switching granted ⊢
    cases switching with
    | idle active =>
      rw [active r record] at inactive
      cases inactive
    | refused => cases granted
    | @switched t r' record' _ request =>
      rw [record] at record'
      cases record'
      have held := h.mem_heldBy_addLinear (h.constraintEngine r known) (congrArg Prod.fst request)
      rw [show u.addLinear r.engine r.linear = (.ok (), t) from request] at held
      exact held
  · unfold heldBy at hx
    cases he : u.engines[i]? with
    | none =>
      rw [he] at hx
      cases hx
    | some e =>
      rw [he] at hx
      have linear : r.linear ∈ [] ++ u.linears :=
        List.mem_append_left (u.views.flatMap View.pinned) (List.mem_map_of_mem known)
      exact (h.numbering.held_known e (List.mem_of_getElem? he) x hx r.linear linear same.symm).symm

/-- Of the constraints made, each engine holds its own that are active. -/
def HoldsActive (u : Scene K) : Prop :=
  ∀ r ∈ u.constraints, ∀ i, r.linear ∈ u.heldBy i ↔ r.engine = i ∧ r.active = true

/-! ## Anchors that were looked up before -/

/-- `Filled K view cache`: the cache of a block on a view, after properties were read in whatever
scenes. -/
inductive Filled (K : Type) [Scalar K] (view : ViewId) : Cache Anchor → Prop where
  | empty : Filled K view {}
  | read {cache : Cache Anchor} (p : Property) (s : Scene K) :
      Filled K view cache → Filled K view (host.readProperty view p cache s).1.2

/-- Whatever scenes the properties were read in, the cache holds the anchors of the view's properties:
an anchor is made of a view and a feature and of nothing in the scene. -/
theorem Filled.cacheOf {view : ViewId} {cache : Cache Anchor} (h : Filled K view cache) :
    CacheOf view cache := by
  induction h with
  | empty =>
    intro p a h
    simp [Cache.get?] at h
  | read p s _ ih =>
    obtain ⟨cache', h', read⟩ := host_readProperty ih s p
    rw [read]
    exact h'

/-- What is made of anchors that were looked up in whatever scenes takes the insets of `u`. -/
structure PresentRelates (u : Scene K) : Prop where
  between : ∀ (s₁ s₂ : Scene K) lhs relation rhs offset,
    Asks [u.demandBetween lhs relation rhs offset] u
      (host.relate (host.fetch lhs s₁).1 relation (host.fetch rhs s₂).1 offset u).2
  fixed : ∀ (s : Scene K) lhs value,
    Asks [u.demandFixed lhs value] u (host.relateNumber (host.fetch lhs s).1 value u).2
  statement : ∀ view cache, Filled K view cache → ∀ st : Statement K,
    Asks [u.demand (st.property.anchor view) st.relating] u
      (host.runEntry view cache (.statement st) u).2

/-- Anchors that were looked up before are no more than names, so relations between them are made at
the insets of the scene they are made in. -/
theorem present_relates (u : Scene K) : PresentRelates u where
  between s₁ s₂ lhs relation rhs offset := by
    rw [host_fetch, host_fetch]
    exact relate_asks u lhs relation rhs offset
  fixed s lhs value := by
    rw [host_fetch]
    exact relateNumber_asks u lhs value
  statement view cache filled st := by
    obtain ⟨cache', -, read⟩ := host_readProperty filled.cacheOf u st.property
    have ran : (host.runEntry view cache (.statement st) u).2 =
        (u.state (st.property.anchor view) st.relating).2 := by
      unfold Host.runEntry
      show ((host.applyRelating (host.readProperty view st.property cache u).1.1 st.relating >>=
        fun c => pure (if st.kept then Outcome.constraint c else .discarded,
          (host.readProperty view st.property cache u).1.2))
        (host.readProperty view st.property cache u).2).2 = _
      rw [read, ← host_applyRelating]
      rfl
    rw [ran]
    exact state_asks u _ _

end Scene

end ViewConstraints

import ViewConstraints.Proofs.Scene.Growth
import ViewConstraints.Proofs.Scene.InForce

/-!
# What requests leave alone of an engine

Every request works for one engine: the engine of the view it is about, or of the constraint, which
is that of the constraint's left anchor. `Untouched i s t` says that two scenes have the same engine in
place `i`, with the same views and the same constraints of its own. Each request keeps it for every
engine but the one it works for, whatever unknowns of other engines' views take part, and with it all
that can be seen of the engine (`Untouched.observe`).
-/

namespace ViewConstraints

open Linear Layout

/-- Changing an entry that a predicate rejects before and after leaves those it selects where they are. -/
theorem filter_zipIdx_modify {α : Type} {p : α → Bool} {f : α → α} {l : List α} {i : Nat}
    (h : ∀ x, l[i]? = some x → p x = false ∧ p (f x) = false) (n : Nat) :
    ((l.modify i f).zipIdx n).filter (fun x => p x.1) = (l.zipIdx n).filter fun x => p x.1 := by
  induction l generalizing i n with
  | nil => rw [List.modify_nil]
  | cons x rest ih =>
    cases i with
    | zero =>
      obtain ⟨before, after⟩ := h x rfl
      rw [List.modify_zero_cons, List.zipIdx_cons, List.zipIdx_cons,
        List.filter_cons_of_neg (by simp [after]), List.filter_cons_of_neg (by simp [before])]
    | succ i =>
      rw [List.modify_succ_cons, List.zipIdx_cons, List.zipIdx_cons, List.filter_cons,
        List.filter_cons, ih h]

/-- Adding an entry that a predicate rejects leaves those it selects where they are. -/
theorem filter_zipIdx_append_singleton {α : Type} {p : α → Bool} {x : α} (h : p x = false)
    (l : List α) : (l ++ [x]).zipIdx.filter (fun x => p x.1) = l.zipIdx.filter fun x => p x.1 := by
  rw [List.zipIdx_append, List.filter_append, List.zipIdx_singleton,
    List.filter_cons_of_neg (by simp [h]), List.filter_nil, List.append_nil]

/-! ## What belongs to an engine, and what can be seen of it -/

/-- What can be seen of a view. -/
structure View.Sight (K : Type) where
  view : ViewId
  pinned : Bool
  insets : Insets K
  /-- The frame as it is read. -/
  frame : Rect K
  /-- The frame of the safe area as it is read. -/
  safeFrame : Rect K

namespace Scene

/-- What can be seen of an engine. -/
structure Sight (K : Type) where
  config : Option (Config K)
  /-- The linear constraints that the solver holds. -/
  held : List (Constraint K)
  views : List (View.Sight K)
  /-- The activity of each constraint. -/
  active : List (ConstraintId × Bool)

section

variable {K : Type}

/-- The engine that lays a view out. -/
def viewOwner (s : Scene K) (view : ViewId) : EngineId := (s.views[view]?.map View.engine).getD 0

/-- The engine that a constraint takes part in. -/
def constraintOwner (s : Scene K) (c : ConstraintId) : EngineId :=
  (s.constraints[c]?.map AnchorConstraint.engine).getD 0

/-- The views of an engine, with their numbers. -/
def viewsOf (s : Scene K) (i : EngineId) : List (View K × ViewId) :=
  s.views.zipIdx.filter fun x => x.1.engine = i

/-- The constraints of an engine, with their numbers. -/
def constraintsOf (s : Scene K) (i : EngineId) : List (AnchorConstraint K × ConstraintId) :=
  s.constraints.zipIdx.filter fun x => x.1.engine = i

/-- Two scenes with the same engine in a place, and the same views and constraints of this engine. -/
structure Untouched (i : EngineId) (s t : Scene K) : Prop where
  engine : t.engines[i]? = s.engines[i]?
  views : t.viewsOf i = s.viewsOf i
  constraints : t.constraintsOf i = s.constraintsOf i

variable {i j : EngineId} {s t u : Scene K}

/-- A view that exists belongs to its owner. -/
theorem engine_ne_of_viewOwner {view : ViewId} {v : View K} (h : s.viewOwner view ≠ i)
    (hv : s.views[view]? = some v) : v.engine ≠ i := by
  rwa [viewOwner, hv] at h

/-- A constraint that exists belongs to its owner. -/
theorem engine_ne_of_constraintOwner {c : ConstraintId} {r : AnchorConstraint K}
    (h : s.constraintOwner c ≠ i) (hr : s.constraints[c]? = some r) : r.engine ≠ i := by
  rwa [constraintOwner, hr] at h

/-- What is settled about the views says whose they are. -/
theorem viewOwner_congr (h : t.views.map View.identity = s.views.map View.identity) (view : ViewId) :
    t.viewOwner view = s.viewOwner view := by
  have entry := congrArg (fun l => (l[view]?.map Prod.snd).getD 0) h
  simp only [List.getElem?_map, Option.map_map] at entry
  exact entry

/-- What is settled about the constraints says whose they are. -/
theorem Steady.constraintOwner (h : Steady s t) (c : ConstraintId) :
    t.constraintOwner c = s.constraintOwner c := by
  have entry := congrArg (fun l => (l[c]?.map Prod.fst).getD 0) h.constraints
  simp only [List.getElem?_map, Option.map_map] at entry
  exact entry

namespace Untouched

theorem refl (i : EngineId) (s : Scene K) : Untouched i s s := ⟨rfl, rfl, rfl⟩

theorem trans (h : Untouched i s t) (h' : Untouched i t u) : Untouched i s u :=
  ⟨h'.engine.trans h.engine, h'.views.trans h.views, h'.constraints.trans h.constraints⟩

/-- Another engine is put back changed. -/
theorem setEngine (h : j ≠ i) (s : Scene K) (e : Engine K) :
    Untouched i s { s with engines := s.engines.set j e } :=
  ⟨List.getElem?_set_ne h, rfl, rfl⟩

/-- A view of another engine is changed. -/
theorem modifyView {view : ViewId} (h : s.viewOwner view ≠ i) {f : View K → View K}
    (hf : ∀ v, (f v).engine = v.engine) : Untouched i s (s.modifyView view f) := by
  refine ⟨rfl, filter_zipIdx_modify (p := fun v : View K => v.engine = i) ?_ 0, rfl⟩
  intro v hv
  have other := engine_ne_of_viewOwner h hv
  exact ⟨decide_eq_false other, decide_eq_false (hf v ▸ other)⟩

/-- A constraint of another engine is switched. -/
theorem switch {c : ConstraintId} (h : s.constraintOwner c ≠ i) (r : AnchorConstraint K)
    (active : Bool) : Untouched i s (s.switch c r active) := by
  refine ⟨rfl, rfl, filter_zipIdx_modify (p := fun r : AnchorConstraint K => r.engine = i) ?_ 0⟩
  intro r hr
  have other := engine_ne_of_constraintOwner h hr
  exact ⟨decide_eq_false other, decide_eq_false other⟩

/-- A view of another engine is added. -/
theorem appendView (s : Scene K) {v : View K} (h : v.engine ≠ i) :
    Untouched i s { s with views := s.views ++ [v] } :=
  ⟨rfl, filter_zipIdx_append_singleton (p := fun v : View K => v.engine = i) (decide_eq_false h) _,
    rfl⟩

/-- A constraint of another engine is added. -/
theorem appendConstraint (s : Scene K) {r : AnchorConstraint K} (h : r.engine ≠ i) (next : Nat) :
    Untouched i s { s with nextLinear := next, constraints := s.constraints ++ [r] } :=
  ⟨rfl, rfl, filter_zipIdx_append_singleton (p := fun r : AnchorConstraint K => r.engine = i)
    (decide_eq_false h) _⟩

end Untouched

end

variable {K : Type} [Scalar K] {i j : EngineId} {s t : Scene K}

/-- What can be seen of an engine in a scene. -/
def observe (s : Scene K) (i : EngineId) : Sight K where
  config := s.engines[i]?.map Engine.config
  held := s.heldBy i
  views := (s.viewsOf i).map fun (v, view) =>
    ⟨view, v.isPinned, v.insets, (s.frame view).1, (s.safeFrame view).1⟩
  active := (s.constraintsOf i).map fun (r, c) => (c, r.active)

omit [Scalar K] in
/-- The views of an engine are the views of the scene that belong to it, under the numbers they
have there. -/
theorem mem_viewsOf {v : View K} {view : ViewId} (h : (v, view) ∈ s.viewsOf i) :
    s.views[view]? = some v ∧ v.engine = i := by
  obtain ⟨hmem, hengine⟩ := List.mem_filter.1 h
  exact ⟨List.mem_zipIdx_iff_getElem?.1 hmem, of_decide_eq_true hengine⟩

/-- The frame of a view is read off its engine. -/
theorem frame_eq_of_view {view : ViewId} {v : View K} (hv : s.views[view]? = some v) :
    (s.frame view).1 = (s.engines[v.engine]?.map fun e => e.refresh.frameOf view).getD .zero := by
  rw [frame, hv, Option.bind_some]
  cases s.engines[v.engine]? <;> rfl

/-- The safe area of a view that exists lies in its frame by the insets of the view. -/
theorem safeFrame_eq_of_view {view : ViewId} {v : View K} (hv : s.views[view]? = some v) :
    (s.safeFrame view).1 = (s.frame view).1.insetBy v.insets := by
  rw [safeFrame_eq, Scene.insets, hv]
  rfl

/-- An engine that is untouched looks as it did. -/
theorem Untouched.observe (h : Untouched i s t) : t.observe i = s.observe i := by
  have views : ∀ x ∈ s.viewsOf i,
      (⟨x.2, x.1.isPinned, x.1.insets, (t.frame x.2).1, (t.safeFrame x.2).1⟩ : View.Sight K) =
        ⟨x.2, x.1.isPinned, x.1.insets, (s.frame x.2).1, (s.safeFrame x.2).1⟩ := by
    rintro ⟨v, view⟩ hmem
    obtain ⟨hs, hengine⟩ := mem_viewsOf hmem
    obtain ⟨ht, -⟩ := mem_viewsOf (h.views ▸ hmem)
    have frame : (t.frame view).1 = (s.frame view).1 := by
      rw [frame_eq_of_view hs, frame_eq_of_view ht, hengine, h.engine]
    rw [safeFrame_eq_of_view hs, safeFrame_eq_of_view ht, frame]
  rw [Scene.observe, Scene.observe, heldBy, heldBy, h.engine, h.views, h.constraints,
    List.map_congr_left views]

/-! ## Requests of a solver -/

/-- An addition changes the solver that is asked, and no other. -/
theorem addLinear_untouched (h : j ≠ i) (s : Scene K) (c : Constraint K) :
    Untouched i s (s.addLinear j c).2 := by
  unfold addLinear
  split
  · exact .refl i s
  · exact .setEngine h s _

/-- A removal changes the solver that is asked, and no other. -/
theorem removeLinear_untouched (h : j ≠ i) (s : Scene K) (c : Constraint K) :
    Untouched i s (s.removeLinear j c).2 := by
  unfold removeLinear
  split
  · exact .refl i s
  · exact .setEngine h s _

/-- The solver that is asked about a constraint is that of the constraint's engine. -/
theorem requestActivity_untouched {r : AnchorConstraint K} (h : r.engine ≠ i) (s : Scene K)
    (active : Bool) : Untouched i s (s.requestActivity r active).2 := by
  cases active with
  | true => exact addLinear_untouched h s r.linear
  | false => exact removeLinear_untouched h s r.linear

/-! ## Views -/

/-- A pin asks the solver of its view's engine. Its number is taken from the scene, where no
engine looks. -/
theorem pinPart_untouched (h : j ≠ i) (view : ViewId) (name : String)
    (acc : List (Constraint K) × Scene K) (part : Quantity × K) :
    Untouched i acc.2 (pinPart view name j acc part).2 := by
  have added : Untouched i acc.2
      (acc.2.freshLinear.2.addLinear j (pinConstraint acc.2.nextLinear view part)).2 :=
    have numbered : Untouched i acc.2 acc.2.freshLinear.2 := ⟨rfl, rfl, rfl⟩
    numbered.trans (addLinear_untouched h _ _)
  unfold pinPart
  dsimp only [freshLinear] at added ⊢
  split <;> rename_i hr <;> rw [hr] at added
  · exact added
  · exact added.trans ⟨rfl, rfl, rfl⟩

/-- Holding a view asks the solver of its engine, and changes the view. -/
theorem pin_untouched {view : ViewId} (h : s.viewOwner view ≠ i) : Untouched i s (s.pin view) := by
  refine pin_induction (fun _ acc => Untouched i s acc.2 ∧ acc.2.views = s.views)
    (fun _ => .refl i s) (fun _ _ _ => ⟨.refl i s, rfl⟩) ?_ ?_
  · rintro v hv acc part _ ⟨pinned, views⟩
    exact ⟨pinned.trans (pinPart_untouched (engine_ne_of_viewOwner h hv) view v.name acc part),
      (pinPart_records view v.name v.engine acc part).views.trans views⟩
  · rintro v _ _ pins t ⟨pinned, views⟩
    have owner := viewOwner_congr (congrArg (List.map View.identity) views) view
    exact pinned.trans (.modifyView (owner ▸ h) fun _ => rfl)

/-- Removing a pin asks the solver of its view's engine. -/
theorem unpinPart_untouched (h : j ≠ i) (view : ViewId) (name : String) (s : Scene K)
    (c : Constraint K) : Untouched i s (unpinPart view name j s c) := by
  have removed := removeLinear_untouched h s c
  unfold unpinPart
  split <;> rename_i hr <;> rw [hr] at removed
  · exact removed
  · exact removed.trans ⟨rfl, rfl, rfl⟩

/-- Releasing a view asks the solver of its engine, and changes the view. -/
theorem unpin_untouched {view : ViewId} (h : s.viewOwner view ≠ i) :
    Untouched i s (s.unpin view) := by
  refine unpin_induction (fun _ _ t => Untouched i s t) (fun _ => .refl i s) ?_ ?_ ?_
  · exact fun _ _ _ _ => .modifyView h fun _ => rfl
  · exact fun v hv c _ t released =>
      released.trans (unpinPart_untouched (engine_ne_of_viewOwner h hv) view v.name t c)
  · exact fun _ _ _ released => released.trans ⟨rfl, rfl, rfl⟩

/-- Reading a frame makes the engine of the view learn values, and no other. -/
theorem frame_untouched {view : ViewId} (h : s.viewOwner view ≠ i) :
    Untouched i s (s.frame view).2 := by
  have read := frame_read s view
  generalize s.frame view = a at read ⊢
  cases read with
  | absent => exact .refl i s
  | learnt hv _ => exact .setEngine (engine_ne_of_viewOwner h hv) s _

omit [Scalar K] in
/-- The insets of a view are seen in its own engine only. -/
theorem setInsets_untouched {view : ViewId} (h : s.viewOwner view ≠ i) (insets : Insets K) :
    Untouched i s (s.setInsets view insets) :=
  .modifyView h fun _ => rfl

/-- Holding or releasing a view leaves alone every engine but its own. The frame it is held at is read
off its own as well. -/
theorem setPinned_untouched {view : ViewId} (h : s.viewOwner view ≠ i) (enabled : Bool) :
    Untouched i s (s.setPinned view enabled) := by
  cases enabled with
  | true =>
    rw [setPinned, if_pos rfl]
    have owner : (s.frame view).2.viewOwner view ≠ i :=
      (viewOwner_congr (frame_steady s view).views view).symm ▸ h
    have framed : Untouched i (s.frame view).2
        ((s.frame view).2.modifyView view fun v => { v with frame := (s.frame view).1 }) :=
      .modifyView owner fun _ => rfl
    have kept := steady_modifyView (s.frame view).2 view
      (f := fun v => { v with frame := (s.frame view).1 }) fun _ => rfl
    have owner' := viewOwner_congr kept.views view
    exact (frame_untouched h).trans (framed.trans (pin_untouched (owner' ▸ owner)))
  | false => exact unpin_untouched h

/-- A view that is added to an engine leaves the others alone. -/
theorem insertView_untouched (h : j ≠ i) (s : Scene K) (name : String) (frame : Rect K)
    (insets : Insets K) : Untouched i s (s.insertView name j frame insets).2 := by
  have inserted : Untouched i s { s with views := s.views ++ [{ name, engine := j, insets, frame }] } :=
    .appendView s h
  refine inserted.trans (pin_untouched ?_)
  rwa [viewOwner, List.getElem?_concat_length]

/-- A new engine is none of those before it. -/
theorem addEngine_untouched (h : s.engines.length ≠ i) (config : Config K) :
    Untouched i s (s.addEngine config).2 := by
  have extended : Untouched i s
      { s with engines := s.engines ++ [Engine.create config s.views.length] } := by
    refine ⟨?_, rfl, rfl⟩
    rw [List.getElem?_append]
    split
    · rfl
    next hi =>
      have beyond : 0 < i - s.engines.length :=
        Nat.sub_pos_of_lt (Nat.lt_of_le_of_ne (Nat.le_of_not_lt hi) h)
      rw [List.getElem?_singleton, if_neg (Nat.ne_of_gt beyond),
        List.getElem?_eq_none (Nat.le_of_not_lt hi)]
  exact extended.trans (insertView_untouched h _ _ _ _)

/-! ## Constraints -/

/-- Whose unknowns stand on the right side does not matter. -/
theorem relate_untouched {lhs : Anchor} (h : s.engineOf lhs ≠ i) (relation : Relation)
    (rhs : Anchor) (offset : K) : Untouched i s (s.relate lhs relation rhs offset).2 :=
  .appendConstraint s h _

/-- A constraint that fixes an anchor belongs to the engine of the anchor. -/
theorem relateNumber_untouched {lhs : Anchor} (h : s.engineOf lhs ≠ i) (value : K) :
    Untouched i s (s.relateNumber lhs value).2 :=
  .appendConstraint s h _

/-- A request for activity asks the solver of the constraint's engine, and switches a flag of this
engine at most, whatever views the constraint is about. -/
theorem trySetActive_untouched {c : ConstraintId} (h : s.constraintOwner c ≠ i) (active : Bool) :
    Untouched i s (s.trySetActive c active).2 := by
  have switching := trySetActive_switching s c active
  generalize s.trySetActive c active = a at switching ⊢
  cases switching with
  | idle _ => exact .refl i s
  | refused r _ hr _ hreq =>
    have requested := requestActivity_untouched (engine_ne_of_constraintOwner h hr) s active
    rwa [hreq] at requested
  | switched r hr _ hreq =>
    have requested := requestActivity_untouched (engine_ne_of_constraintOwner h hr) s active
    have records := requestActivity_records s r active
    rw [hreq] at requested records
    refine requested.trans (.switch ?_ r active)
    rwa [constraintOwner, records.constraints]

/-- A request for activity leaves other engines alone, its report included: the log is no engine's. -/
theorem setActive_untouched {c : ConstraintId} (h : s.constraintOwner c ≠ i) (active : Bool) :
    Untouched i s (s.setActive c active) := by
  have tried := trySetActive_untouched h active
  unfold setActive
  generalize s.trySetActive c active = a at tried ⊢
  obtain ⟨_ | _, t⟩ := a
  · exact tried.trans ⟨rfl, rfl, rfl⟩
  · exact tried

/-- A batch leaves an engine alone if none of its constraints belongs to it. -/
theorem setAllActive_untouched (active : Bool) (cs : List ConstraintId)
    (h : ∀ c ∈ cs, s.constraintOwner c ≠ i) : Untouched i s (s.setAllActive cs active) := by
  induction cs generalizing s with
  | nil => exact .refl i s
  | cons c cs ih =>
    have first := setActive_untouched (h c (.head _)) active
    refine first.trans (ih fun d hd => ?_)
    rw [(setActive_steady s c active).constraintOwner]
    exact h d (.tail _ hd)

/-- A constraint made by `construct` is one of the engine of its left anchor. -/
theorem construct_owner (s : Scene K) (lhs : Anchor) (relating : Relating K) :
    (s.construct lhs relating).2.constraintOwner (s.construct lhs relating).1 = s.engineOf lhs := by
  have inserted (linear : Constraint K) (relationship : Relationship K) :
      (s.freshLinear.2.insertConstraint (s.engineOf lhs) relationship linear).2.constraintOwner
        s.constraints.length = s.engineOf lhs := by
    rw [constraintOwner, insertConstraint]
    exact congrArg (fun r : Option _ => (r.map AnchorConstraint.engine).getD 0)
      List.getElem?_concat_length
  cases relating with
  | equalTo target => cases target <;> exact inserted _ _
  | greaterThanOrEqualTo | lessThanOrEqualTo | explicit | equalConstant => exact inserted _ _

/-- Every way of relating an anchor makes a constraint of the anchor's engine. -/
theorem construct_untouched {lhs : Anchor} (h : s.engineOf lhs ≠ i) (relating : Relating K) :
    Untouched i s (s.construct lhs relating).2 := by
  cases relating with
  | equalTo target =>
    cases target with
    | place p => exact relate_untouched h _ _ _
    | number value => exact relateNumber_untouched h value
  | greaterThanOrEqualTo p | lessThanOrEqualTo p => exact relate_untouched h _ _ _
  | explicit relation anchor offset => exact relate_untouched h _ _ _
  | equalConstant value => exact relateNumber_untouched h value

/-- A statement about an anchor leaves every engine alone but that of the anchor. -/
theorem state_untouched {lhs : Anchor} (h : s.engineOf lhs ≠ i) (relating : Relating K) :
    Untouched i s (s.state lhs relating).2 := by
  have made := construct_untouched h relating
  have activated : Untouched i (s.construct lhs relating).2
      ((s.construct lhs relating).2.setActive (s.construct lhs relating).1 true) :=
    setActive_untouched ((construct_owner s lhs relating).symm ▸ h) true
  exact made.trans (activated.trans ⟨rfl, rfl, rfl⟩)

/-- The statements of a block on a view all work for the engine of that view. -/
theorem stateAll_untouched {view : ViewId} (statements : List (Statement K))
    (h : s.viewOwner view ≠ i) : Untouched i s (stateAll view s statements).2 := by
  induction statements generalizing s with
  | nil => exact .refl i s
  | cons st rest ih =>
    have first : Untouched i s (s.state (st.property.anchor view) st.relating).2 :=
      have owner : s.engineOf (st.property.anchor view) ≠ i := h
      state_untouched owner st.relating
    refine first.trans (ih ?_)
    have views := state_views s (st.property.anchor view) st.relating
    rwa [viewOwner, views]

/-! ## Reading frames -/

/-- Reading frames leaves an engine alone if none of the views belongs to it. -/
theorem readFrames_untouched (views : List ViewId) (h : ∀ view ∈ views, s.viewOwner view ≠ i) :
    Untouched i s (Session.readFrames s views).2 := by
  induction views generalizing s with
  | nil => exact .refl i s
  | cons view views ih =>
    refine (frame_untouched (h view (.head _))).trans (ih fun other hother => ?_)
    rw [viewOwner_congr (frame_steady s view).views]
    exact h other (.tail _ hother)

end Scene

end ViewConstraints

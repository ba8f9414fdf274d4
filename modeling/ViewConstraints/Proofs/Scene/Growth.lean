import ViewConstraints.Proofs.Scene.Demands
import ViewConstraints.Proofs.Scene.Log

/-!
# What is settled when it is made

An engine keeps its configuration and its root, a view its name and its engine, and a constraint what it was made
as, whatever is asked of the scene afterwards: only making engines, views and constraints changes
these lists, and only by adding to them (`grows_stable`). Requests that make nothing and apply no
relation leave them, and the relations reported, as they are (`Steady`).
-/

namespace ViewConstraints

open Linear Layout
open scoped List

section

variable {K : Type}

/-- What is settled about a view when it is created: its name and its engine. -/
def View.identity (v : View K) : String × EngineId := (v.name, v.engine)

/-- What is settled about a constraint when it is made: all but its activity. -/
def AnchorConstraint.identity (r : AnchorConstraint K) :
    EngineId × Relationship K × Constraint K :=
  (r.engine, r.relationship, r.linear)

namespace Scene

/-- The relation that an event reports as applied. -/
def Event.applied? : Event K → Option (Applied K)
  | .applied report => some report
  | _ => none

/-- The relations reported in a scene. -/
def applied (s : Scene K) : List (Applied K) := s.log.filterMap Event.applied?

/-- What is settled about an engine when it is created: its configuration and its root view. -/
def Engine.identity (e : Engine K) : Config K × ViewId := (e.config, e.root)

/-- Two scenes with the same engines, views and constraints, as far as these are settled, and the same
relations reported. -/
structure Steady (s t : Scene K) : Prop where
  engines : t.engines.map Engine.identity = s.engines.map Engine.identity
  views : t.views.map View.identity = s.views.map View.identity
  constraints : t.constraints.map AnchorConstraint.identity =
    s.constraints.map AnchorConstraint.identity
  applied : t.applied = s.applied

/-- Two scenes of which the second has the engines, views and constraints of the first, as far as
these are settled, and perhaps others after them. -/
structure Grows (s t : Scene K) : Prop where
  engines : s.engines.map Engine.identity <+: t.engines.map Engine.identity
  views : s.views.map View.identity <+: t.views.map View.identity
  constraints : s.constraints.map AnchorConstraint.identity <+:
    t.constraints.map AnchorConstraint.identity

namespace Steady

variable {s t u : Scene K}

theorem refl (s : Scene K) : Steady s s := ⟨rfl, rfl, rfl, rfl⟩

/-- Steady requests may follow one another. -/
theorem trans (h : Steady s t) (h' : Steady t u) : Steady s u :=
  ⟨h'.engines.trans h.engines, h'.views.trans h.views, h'.constraints.trans h.constraints,
    h'.applied.trans h.applied⟩

/-- A request that keeps views, constraints and log is steady if its engines are settled as before. -/
theorem of_records (h : SameRecords s t)
    (hengines : t.engines.map Engine.identity = s.engines.map Engine.identity)
    (hlog : t.log = s.log) : Steady s t :=
  ⟨hengines, by rw [h.views], by rw [h.constraints], by rw [Scene.applied, Scene.applied, hlog]⟩

/-- A steady request is one that adds nothing. -/
theorem grows (h : Steady s t) : Grows s t :=
  ⟨h.engines ▸ List.prefix_refl _, h.views ▸ List.prefix_refl _,
    h.constraints ▸ List.prefix_refl _⟩

end Steady

/-- What is added first stays when more is added. -/
theorem Grows.trans {s t u : Scene K} (h : Grows s t) (h' : Grows t u) : Grows s u :=
  ⟨h.engines.trans h'.engines, h.views.trans h'.views, h.constraints.trans h'.constraints⟩

/-- An entry that is settled before is settled after. -/
theorem exists_of_map_prefix {α β : Type} {f : α → β} {before after : List α}
    (h : before.map f <+: after.map f) {i : Nat} {x : α} (hx : before[i]? = some x) :
    ∃ y, after[i]? = some y ∧ f y = f x := by
  have hi : (before.map f)[i]? = some (f x) := by rw [List.getElem?_map, hx]; rfl
  obtain ⟨rest, hrest⟩ := h
  rw [← Option.map_eq_some_iff, ← List.getElem?_map, ← hrest,
    List.getElem?_append_left (List.getElem?_eq_some_iff.1 hi).1, hi]

/-- An engine keeps its place, its configuration and its root. -/
theorem Grows.engine {s t : Scene K} (h : Grows s t) {i : EngineId} {e : Engine K}
    (he : s.engines[i]? = some e) : ∃ e', t.engines[i]? = some e' ∧ e'.identity = e.identity :=
  exists_of_map_prefix h.engines he

/-- A view keeps its place, its name and its engine. -/
theorem Grows.view {s t : Scene K} (h : Grows s t) {view : ViewId} {v : View K}
    (hv : s.views[view]? = some v) : ∃ v', t.views[view]? = some v' ∧ v'.identity = v.identity :=
  exists_of_map_prefix h.views hv

/-- A constraint keeps its place and all but its activity. -/
theorem Grows.constraint {s t : Scene K} (h : Grows s t) {c : ConstraintId} {r : AnchorConstraint K}
    (hr : s.constraints[c]? = some r) :
    ∃ r', t.constraints[c]? = some r' ∧ r'.identity = r.identity :=
  exists_of_map_prefix h.constraints hr

theorem Grows.length {s t : Scene K} (h : Grows s t) :
    s.constraints.length ≤ t.constraints.length := by
  simpa using h.constraints.length_le

/-- Requests that make nothing leave the number of constraints as it is. -/
theorem Steady.length {s t : Scene K} (h : Steady s t) :
    t.constraints.length = s.constraints.length := by
  simpa using congrArg List.length h.constraints

theorem Steady.views_length {s t : Scene K} (h : Steady s t) : t.views.length = s.views.length := by
  simpa using congrArg List.length h.views

/-- The linear constraints are among what is settled. -/
theorem Steady.linears {s t : Scene K} (h : Steady s t) :
    t.constraints.map AnchorConstraint.linear = s.constraints.map AnchorConstraint.linear := by
  have linears := congrArg (List.map fun i : EngineId × Relationship K × Constraint K => i.2.2)
    h.constraints
  rwa [List.map_map, List.map_map] at linears

/-- A report adds to the applied relations if it is of one. -/
theorem applied_emit (s : Scene K) (event : Event K) :
    (s.emit event).applied = s.applied ++ event.applied?.toList := by
  rw [applied, applied, emit, List.filterMap_append]
  cases h : event.applied? <;> simp [h]

/-- A report of anything but an applied relation. -/
theorem steady_emit (s : Scene K) {event : Event K} (h : event.applied? = none) :
    Steady s (s.emit event) :=
  ⟨rfl, rfl, rfl, by rw [applied_emit, h]; exact List.append_nil _⟩

/-- A view may change in everything but its name and its engine. -/
theorem steady_modifyView (s : Scene K) (view : ViewId) {f : View K → View K}
    (h : ∀ v, (f v).identity = v.identity) : Steady s (s.modifyView view f) :=
  ⟨rfl, map_modify_of_eq h _ _, rfl, rfl⟩

/-- Activity is the one thing about a constraint that is not settled, and the report of a change is
not of an applied relation. -/
theorem steady_switch (s : Scene K) (c : ConstraintId) (r : AnchorConstraint K) (active : Bool) :
    Steady s (s.switch c r active) := by
  refine ⟨rfl, rfl, map_modify_of_eq (f := fun r : AnchorConstraint K => { r with active })
    (fun _ => rfl) _ _, ?_⟩
  cases active <;> exact (steady_emit s rfl).applied

end Scene

end

namespace Scene

variable {K : Type} [Scalar K]

/-! ## Requests that make nothing -/

/-- An addition replaces an engine by one with another solver, and nothing else. -/
theorem addLinear_steady (s : Scene K) (i : EngineId) (c : Constraint K) :
    Steady s (s.addLinear i c).2 := by
  refine .of_records (addLinear_records s i c) ?_ (addLinear_log s i c)
  unfold addLinear
  split
  · rfl
  next e he => exact map_set_of_eq he rfl

/-- A removal replaces an engine by one with another solver, and nothing else. -/
theorem removeLinear_steady (s : Scene K) (i : EngineId) (c : Constraint K) :
    Steady s (s.removeLinear i c).2 := by
  refine .of_records (removeLinear_records s i c) ?_ (removeLinear_log s i c)
  unfold removeLinear
  split
  · rfl
  next e he => exact map_set_of_eq he rfl

/-- A pin takes a number and asks a solver, and its refusal is reported as no relation. -/
theorem pinPart_steady (view : ViewId) (name : String) (engine : EngineId)
    (acc : List (Constraint K) × Scene K) (part : Quantity × K) :
    Steady acc.2 (pinPart view name engine acc part).2 := by
  have added : Steady acc.2
      (acc.2.freshLinear.2.addLinear engine (pinConstraint acc.2.nextLinear view part)).2 :=
    have h : Steady acc.2 acc.2.freshLinear.2 := ⟨rfl, rfl, rfl, rfl⟩
    h.trans (addLinear_steady _ _ _)
  unfold pinPart
  dsimp only [freshLinear] at added ⊢
  split <;> rename_i hr <;> rw [hr] at added
  · exact added
  · exact added.trans (steady_emit _ rfl)

/-- Holding a view changes its pins only. -/
theorem pin_steady (s : Scene K) (view : ViewId) : Steady s (s.pin view) := by
  refine pin_induction (fun _ acc => Steady s acc.2) (fun _ => .refl s) (fun _ _ _ => .refl s) ?_ ?_
  · exact fun v _ acc part _ h => h.trans (pinPart_steady view v.name v.engine acc part)
  · exact fun _ _ _ _ t h => h.trans (steady_modifyView t view fun _ => rfl)

/-- The removal of a pin asks a solver, and its failure is reported as no relation. -/
theorem unpinPart_steady (view : ViewId) (name : String) (engine : EngineId) (s : Scene K)
    (c : Constraint K) : Steady s (unpinPart view name engine s c) := by
  have removed := removeLinear_steady s engine c
  unfold unpinPart
  split <;> rename_i hr <;> rw [hr] at removed
  · exact removed
  · exact removed.trans (steady_emit _ rfl)

/-- Releasing a view changes its pins only. -/
theorem unpin_steady (s : Scene K) (view : ViewId) : Steady s (s.unpin view) := by
  refine unpin_induction (fun _ _ t => Steady s t) (fun _ => .refl s) ?_ ?_ ?_
  · exact fun _ _ _ _ => steady_modifyView s view fun _ => rfl
  · exact fun v _ c _ t h => h.trans (unpinPart_steady view v.name v.engine t c)
  · exact fun _ _ _ h => h.trans (steady_emit _ rfl)

/-- Reading a frame makes an engine learn values, which are not settled. -/
theorem frame_steady (s : Scene K) (view : ViewId) : Steady s (s.frame view).2 := by
  refine .of_records (frame_records s view) ?_ (frame_log s view)
  have read := frame_read s view
  generalize s.frame view = a at read ⊢
  cases read with
  | absent => rfl
  | learnt _ he => exact map_set_of_eq he rfl

/-- Holding or releasing a view makes nothing, also when the view gets another frame on the way. -/
theorem setPinned_steady (s : Scene K) (view : ViewId) (enabled : Bool) :
    Steady s (s.setPinned view enabled) := by
  cases enabled with
  | true =>
    rw [setPinned, if_pos rfl]
    have framed := steady_modifyView (s.frame view).2 view
      (f := fun v => { v with frame := (s.frame view).1 }) fun _ => rfl
    exact (frame_steady s view).trans (framed.trans (pin_steady _ view))
  | false => exact unpin_steady s view

/-- A request for activity asks a solver and switches at most a flag. -/
theorem trySetActive_steady (s : Scene K) (c : ConstraintId) (active : Bool) :
    Steady s (s.trySetActive c active).2 := by
  have switching := trySetActive_switching s c active
  generalize s.trySetActive c active = a at switching ⊢
  have requested (r : AnchorConstraint K) : Steady s (s.requestActivity r active).2 := by
    cases active with
    | true => exact addLinear_steady s r.engine r.linear
    | false => exact removeLinear_steady s r.engine r.linear
  cases switching with
  | idle _ => exact .refl s
  | refused r _ _ _ hreq =>
    have h := requested r
    rwa [hreq] at h
  | switched r _ _ hreq =>
    have h := requested r
    rw [hreq] at h
    exact h.trans (steady_switch _ c r active)

/-- A request for activity makes nothing. The report of its refusal is of no relation. -/
theorem setActive_steady (s : Scene K) (c : ConstraintId) (active : Bool) :
    Steady s (s.setActive c active) := by
  have h := trySetActive_steady s c active
  unfold setActive
  generalize s.trySetActive c active = a at h ⊢
  obtain ⟨_ | _, t⟩ := a
  · exact h.trans (steady_emit _ rfl)
  · exact h

/-! ## Every request -/

/-- A new view comes after the others, and holding it is steady. -/
theorem insertView_grows (s : Scene K) (name : String) (engine : EngineId) (frame : Rect K)
    (insets : Insets K) : Grows s (s.insertView name engine frame insets).2 := by
  have inserted : Grows s { s with views := s.views ++ [{ name, engine, insets, frame }] } :=
    ⟨List.prefix_refl _, (List.prefix_append _ _).map _, List.prefix_refl _⟩
  exact inserted.trans (pin_steady _ _).grows

/-- A new engine comes after the others. -/
theorem appendEngine_grows (s : Scene K) (config : Config K) (root : ViewId) :
    Grows s { s with engines := s.engines ++ [Engine.create config root] } :=
  ⟨(List.prefix_append _ _).map _, List.prefix_refl _, List.prefix_refl _⟩

/-- Relating two anchors adds one linear constraint, made of the expressions of the anchors and the
priority of the left one's engine. -/
theorem relate_linears (s : Scene K) (lhs : Anchor) (relation : Relation) (rhs : Anchor) (offset : K) :
    (s.relate lhs relation rhs offset).2.constraints.map AnchorConstraint.linear =
      s.constraints.map AnchorConstraint.linear ++ [.relating s.nextLinear (s.expressionOf lhs) relation
        ((s.expressionOf rhs).addConstant offset) (s.priorityOf (s.engineOf lhs))] :=
  List.map_append

/-- Fixing an anchor adds one linear constraint, made of its expression and the priority of
its engine. -/
theorem relateNumber_linears (s : Scene K) (lhs : Anchor) (value : K) :
    (s.relateNumber lhs value).2.constraints.map AnchorConstraint.linear =
      s.constraints.map AnchorConstraint.linear ++ [.equalling s.nextLinear (s.expressionOf lhs) value
        (s.priorityOf (s.engineOf lhs))] :=
  List.map_append

/-- What is settled about a view or a constraint stays. -/
theorem grows_stable : Stable (Grows (K := K)) where
  refl s := (Steady.refl s).grows
  trans h h' := h.trans h'
  addEngine s config :=
    (appendEngine_grows s config s.views.length).trans (insertView_grows _ _ _ _ _)
  addView s _ _ _ _ := insertView_grows s _ _ _ _
  relate _ _ _ _ _ := ⟨List.prefix_refl _, List.prefix_refl _, (List.prefix_append _ _).map _⟩
  relateNumber _ _ _ := ⟨List.prefix_refl _, List.prefix_refl _, (List.prefix_append _ _).map _⟩
  setActive s c active := (setActive_steady s c active).grows
  setPinned s view enabled := (setPinned_steady s view enabled).grows
  setInsets s view insets :=
    (steady_modifyView s view (f := fun v => { v with insets }) fun _ => rfl).grows
  frame s view := (frame_steady s view).grows
  report _ _ := ⟨List.prefix_refl _, List.prefix_refl _, List.prefix_refl _⟩

end Scene

end ViewConstraints

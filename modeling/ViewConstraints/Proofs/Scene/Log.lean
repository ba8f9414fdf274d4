import ViewConstraints.Proofs.Scene.Requests

/-!
# The log only grows

Every request adds to the log and takes nothing out of it (`logged_stable`), so that whatever the log
of a run says at its end covers all of the run. `Scene.Clean` says of a log that it reports no failure
of a solver.
-/

namespace ViewConstraints

open Linear

/-- Whether a refusal is a failure of the solver itself. -/
def EngineError.Cause.isInternal : EngineError.Cause → Bool
  | .internal _ => true
  | _ => false

namespace Scene

section

variable {K : Type}

/-- The refusal that a report is about. -/
def Event.cause? : Event K → Option EngineError.Cause
  | .activationRefused _ error => error.cause
  | .pinRefused _ error | .unpinRefused _ error => error.cause
  | _ => none

/-- The refusals reported in a scene. -/
def causes (s : Scene K) : List EngineError.Cause := s.log.filterMap Event.cause?

/-- An event adds the refusal it is about, if any, at the end. -/
theorem causes_emit (s : Scene K) (event : Event K) :
    (s.emit event).causes = s.causes ++ event.cause?.toList := by
  rw [causes, causes, emit, List.filterMap_append]
  cases h : event.cause? <;> simp [h]

/-- Marking a constraint reports a change and no refusal. -/
theorem causes_switch (s : Scene K) (c : ConstraintId) (r : AnchorConstraint K) (active : Bool) :
    (s.switch c r active).causes = s.causes := by
  rw [switch, causes]
  cases active <;> exact (causes_emit s _).trans (List.append_nil _)

/-- No failure of a solver has been reported. -/
def Clean (s : Scene K) : Prop := ∀ cause ∈ s.causes, cause.isInternal = false

/-- What was clean at the end was clean before. -/
theorem Clean.of_prefix {s t : Scene K} (h : t.Clean) (hl : s.log <+: t.log) : s.Clean :=
  fun cause hc => h cause ((hl.filterMap Event.cause?).subset hc)

end

variable {K : Type} [Scalar K]

/-- Adding a constraint to a solver reports nothing: what the solver answers is reported by the
request that asked, or returned by it. -/
theorem addLinear_log (s : Scene K) (i : EngineId) (c : Constraint K) :
    (s.addLinear i c).2.log = s.log := by
  unfold Scene.addLinear
  split <;> rfl

theorem removeLinear_log (s : Scene K) (i : EngineId) (c : Constraint K) :
    (s.removeLinear i c).2.log = s.log := by
  unfold Scene.removeLinear
  split <;> rfl

/-- A refused pin is reported and a granted one is not, so the log stays or gets longer. -/
theorem pinPart_log (view : ViewId) (name : String) (engine : EngineId)
    (acc : List (Constraint K) × Scene K) (part : Quantity × K) :
    acc.2.log <+: (pinPart view name engine acc part).2.log := by
  have h := addLinear_log acc.2.freshLinear.2 engine (pinConstraint acc.2.nextLinear view part)
  unfold pinPart
  dsimp only [freshLinear] at h ⊢
  split <;> rename_i hr <;> rw [hr] at h
  · exact h ▸ List.prefix_refl _
  · exact h ▸ List.prefix_append _ _

/-- Pinning several components adds to the log, component by component. -/
theorem foldl_pinPart_log (view : ViewId) (name : String) (engine : EngineId)
    (parts : List (Quantity × K)) (acc : List (Constraint K) × Scene K) :
    acc.2.log <+: (parts.foldl (pinPart view name engine) acc).2.log := by
  induction parts generalizing acc with
  | nil => exact List.prefix_refl acc.2.log
  | cons part parts ih => exact (pinPart_log view name engine acc part).trans (ih _)

/-- Holding a view reports the pins that are refused, after what was reported before. -/
theorem pin_log (s : Scene K) (view : ViewId) : s.log <+: (s.pin view).log := by
  refine pin_induction (Q := fun t => s.log <+: t.log) (fun _ acc => s.log <+: acc.2.log)
    (fun _ => List.prefix_refl _) (fun _ _ _ => List.prefix_refl _) ?_ fun _ _ _ _ _ h => h
  exact fun v _ acc part _ h => h.trans (pinPart_log view v.name v.engine acc part)

/-- A pin whose removal fails is reported, and one that is removed is not. -/
theorem unpinPart_log (view : ViewId) (name : String) (engine : EngineId) (s : Scene K)
    (c : Constraint K) : s.log <+: (unpinPart view name engine s c).log := by
  have h := removeLinear_log s engine c
  unfold unpinPart
  split <;> rename_i hr <;> rw [hr] at h
  · exact h ▸ List.prefix_refl _
  · exact h ▸ List.prefix_append _ _

/-- Releasing a view reports the removals that fail and then the release itself, if there is one. -/
theorem unpin_log (s : Scene K) (view : ViewId) : s.log <+: (s.unpin view).log := by
  refine unpin_induction (Q := fun t => s.log <+: t.log) (fun _ _ t => s.log <+: t.log)
    (fun _ => List.prefix_refl _) (fun _ _ _ _ => List.prefix_refl _) ?_ ?_
  · exact fun v _ c _ t h => h.trans (unpinPart_log view v.name v.engine t c)
  · exact fun _ _ _ h => h.trans (List.prefix_append _ _)

/-- Asking the solver about a constraint reports nothing by itself. -/
theorem requestActivity_log (s : Scene K) (r : AnchorConstraint K) (active : Bool) :
    (s.requestActivity r active).2.log = s.log := by
  cases active with
  | true => exact addLinear_log s r.engine r.linear
  | false => exact removeLinear_log s r.engine r.linear

/-- A request that returns its refusal reports the change of activity, if there is one. -/
theorem trySetActive_log (s : Scene K) (c : ConstraintId) (active : Bool) :
    s.log <+: (s.trySetActive c active).2.log := by
  have switching := trySetActive_switching s c active
  generalize s.trySetActive c active = a at switching ⊢
  cases switching with
  | idle _ => exact List.prefix_refl _
  | refused r _ _ _ hreq =>
    have h := requestActivity_log s r active
    rw [hreq] at h
    exact h ▸ List.prefix_refl _
  | switched r _ _ hreq =>
    have h := requestActivity_log s r active
    rw [hreq] at h
    exact h ▸ List.prefix_append _ _

/-- A request that logs its refusal adds at most one report more. -/
theorem setActive_log (s : Scene K) (c : ConstraintId) (active : Bool) :
    s.log <+: (s.setActive c active).log := by
  have h := trySetActive_log s c active
  unfold setActive
  generalize s.trySetActive c active = a at h ⊢
  obtain ⟨_ | _, t⟩ := a
  · exact h.trans (List.prefix_append _ _)
  · exact h

theorem frame_log (s : Scene K) (view : ViewId) : (s.frame view).2.log = s.log := by
  unfold frame
  split <;> rfl

/-- Setting the flag of a view adds the reports of pinning it or of releasing it. -/
theorem setPinned_log (s : Scene K) (view : ViewId) (enabled : Bool) :
    s.log <+: (s.setPinned view enabled).log := by
  cases enabled with
  | true =>
    rw [setPinned, if_pos rfl]
    have h := pin_log ((s.frame view).2.modifyView view fun v => { v with frame := (s.frame view).1 })
      view
    have hf := frame_log s view
    generalize s.frame view = r at h hf ⊢
    obtain ⟨frame, t⟩ := r
    exact hf ▸ h
  | false => exact unpin_log s view

/-- A view is added without a report, and then held. -/
theorem insertView_log (s : Scene K) (name : String) (engine : EngineId) (frame : Rect K)
    (insets : Insets K) : s.log <+: (s.insertView name engine frame insets).2.log :=
  pin_log { s with views := s.views ++ [{ name, engine, insets, frame }] } _

/-- No request takes a report back. -/
theorem logged_stable : Stable fun s t : Scene K => s.log <+: t.log where
  refl _ := List.prefix_refl _
  trans h h' := h.trans h'
  addEngine s config :=
    insertView_log { s with engines := s.engines ++ [Engine.create config s.views.length] } _ _ _ _
  addView s _ _ _ _ := insertView_log s _ _ _ _
  relate _ _ _ _ _ := List.prefix_refl _
  relateNumber _ _ _ := List.prefix_refl _
  setActive := setActive_log
  setPinned := setPinned_log
  setInsets _ _ _ := List.prefix_refl _
  frame s view := frame_log s view ▸ List.prefix_refl _
  report _ _ := List.prefix_append _ _

end Scene

end ViewConstraints

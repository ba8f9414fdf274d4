import ViewConstraints.Proofs.Scene.InForce

/-!
# Releasing a view

A view that is released loses its pins from the record at once; the solver of its engine is then
asked to remove them one by one. `Released` says what is left: no pin is held, whichever removals
failed, and apart from the pins every store is as it was (`unpin_released`). Nothing more than the
numbering of linear constraints is needed for it, so it holds in every state of a session.
-/

namespace ViewConstraints

open Linear Simplex

namespace Scene

section

variable {K : Type}

/-- What a scene has become when the pins of a view are removed from it. -/
structure Released (s : Scene K) (view : ViewId) (v : View K) (t : Scene K) : Prop where
  /-- The view has no pins on record; the records of views are the same otherwise. -/
  views : t.views = s.views.modify view fun v => { v with pins := none }
  /-- The records of constraints are the same, their activity included. -/
  constraints : t.constraints = s.constraints
  /-- The other engines are left alone. -/
  engines : ∀ i, i ≠ v.engine → t.engines[i]? = s.engines[i]?
  /-- The solver of the view's engine holds what it held, without the pins. -/
  held : ∀ c, c ∈ t.heldBy v.engine ↔ c ∈ s.heldBy v.engine ∧ c ∉ v.pinned
  /-- If the view was pinned, its release is reported once, after the removals that failed. -/
  log : v.isPinned = true → ∃ refused,
    (∀ event ∈ refused, ∃ error, event = .unpinRefused view error) ∧
    t.log = s.log ++ refused ++ [.unpinned view v.name]

/-- The view is released. -/
theorem Released.view {s t : Scene K} {view : ViewId} {v : View K} (h : Released s view v t)
    (hv : s.views[view]? = some v) : t.views[view]? = some { v with pins := none } := by
  rw [h.views, List.getElem?_modify_eq, hv]
  rfl

/-- A constraint with the number of a pin of the view is that pin. -/
theorem Numbered.mem_pinned_of_id {s : Scene K} (h : Numbered [] s) {view : ViewId} {v : View K}
    (hv : s.views[view]? = some v) {i : EngineId} {d : Constraint K} (hd : d ∈ s.heldBy i)
    (hid : d.id ∈ v.pinned.map Constraint.id) : d ∈ v.pinned := by
  obtain ⟨c, hc, heq⟩ := List.mem_map.1 hid
  have known : c ∈ s.linears :=
    List.mem_append_right _ (List.mem_flatMap.2 ⟨v, List.mem_of_getElem? hv, hc⟩)
  unfold heldBy at hd
  cases he : s.engines[i]? with
  | none =>
    rw [he] at hd
    cases hd
  | some e =>
    rw [he] at hd
    exact h.numbering.held_known e (List.mem_of_getElem? he) d hd c known heq ▸ hc

end

variable {K : Type} [Scalar K] {s : Scene K} {passing : List (Constraint K)}

/-! ## Removals -/

/-- However it ends, a removal takes the constraint from what its engine holds. -/
theorem Numbered.heldBy_removeLinear (h : Numbered passing s) (i : EngineId) (c : Constraint K) :
    (s.removeLinear i c).2.heldBy i = (s.heldBy i).filter fun d => d.id ≠ c.id := by
  unfold Scene.removeLinear
  split
  next he => simp [heldBy, he]
  next e he =>
    have keyed := h.numbering.keyed e (List.mem_of_getElem? he)
    rw [heldBy_set (List.getElem?_eq_some_iff.1 he).1, if_pos rfl]
    refine (Solver.constraints_removeConstraint keyed c).trans ?_
    rw [heldBy, he]
    rfl

/-- A constraint is taken out of one engine, and the others are left alone. -/
theorem removeLinear_engines (s : Scene K) {i j : EngineId} (hj : j ≠ i) (c : Constraint K) :
    (s.removeLinear i c).2.engines[j]? = s.engines[j]? := by
  unfold Scene.removeLinear
  split
  · rfl
  · exact List.getElem?_set_ne hj.symm

/-- A pin is no longer held after its removal was asked for, whether or not the solver fails. -/
theorem Numbered.heldBy_unpinPart (h : Numbered passing s) (view : ViewId) (name : String)
    (i : EngineId) (c : Constraint K) :
    (Scene.unpinPart view name i s c).heldBy i = (s.heldBy i).filter fun d => d.id ≠ c.id := by
  have removed := h.heldBy_removeLinear i c
  unfold Scene.unpinPart
  split <;> rename_i hr <;> rw [hr] at removed <;> exact removed

/-- Releasing one pin leaves the engines of other views alone. -/
theorem unpinPart_engines (view : ViewId) (name : String) {i j : EngineId} (hj : j ≠ i)
    (s : Scene K) (c : Constraint K) : (unpinPart view name i s c).engines[j]? = s.engines[j]? := by
  have others := removeLinear_engines s hj c
  unfold unpinPart
  split <;> rename_i hr <;> rw [hr] at others <;> exact others

/-- One removal is reported if it fails, and not otherwise. -/
theorem unpinPart_reports (view : ViewId) (name : String) (i : EngineId) (s : Scene K)
    (c : Constraint K) :
    ∃ refused, (∀ event ∈ refused, ∃ error, event = Event.unpinRefused view error) ∧
      (unpinPart view name i s c).log = s.log ++ refused := by
  have log := removeLinear_log s i c
  unfold unpinPart
  split <;> rename_i hr <;> rw [hr] at log
  · exact ⟨[], List.forall_mem_nil _, log.trans (List.append_nil _).symm⟩
  · exact ⟨_, fun event he => ⟨_, List.mem_singleton.1 he⟩, congrArg (· ++ _) log⟩

/-! ## All pins of a view -/

/-- A view that is not pinned is not released. -/
theorem unpin_of_unpinned {view : ViewId} {v : View K} (hv : s.views[view]? = some v)
    (unpinned : v.isPinned = false) : s.unpin view = s := by
  rw [View.isPinned, Option.isSome_eq_false_iff, Option.isNone_iff_eq_none] at unpinned
  unfold unpin
  rw [hv]
  dsimp only
  rw [unpinned]

/-- Releasing a view leaves the engines of other views alone. -/
theorem unpin_engines {view : ViewId} {v : View K} (hv : s.views[view]? = some v) {i : EngineId}
    (hi : i ≠ v.engine) : (s.unpin view).engines[i]? = s.engines[i]? := by
  refine unpin_induction (Q := fun t => t.engines[i]? = s.engines[i]?)
    (fun _ _ t => t.engines[i]? = s.engines[i]?) (fun _ => rfl) (fun _ _ _ _ => rfl) ?_
    fun _ _ _ h => h
  intro w hw c _ t h
  cases hv.symm.trans hw
  exact (unpinPart_engines view v.name hi t c).trans h

/-- Pins are taken from what the engine holds one after the other, those after a failure like those
before it: what is held apart from the pins still to be removed does not change. -/
theorem Numbered.unpin_heldBy (h : Numbered [] s) {view : ViewId} {v : View K}
    (hv : s.views[view]? = some v) : (s.unpin view).heldBy v.engine =
      (s.heldBy v.engine).filter fun d => d.id ∉ v.pinned.map Constraint.id := by
  refine Scene.unpin_induction (Q := fun t => t.heldBy v.engine = _)
    (fun w cs t => Numbered w.pinned t ∧ (t.heldBy v.engine).filter
      (fun d => d.id ∉ cs.map Constraint.id) = (s.heldBy v.engine).filter
        fun d => d.id ∉ v.pinned.map Constraint.id) ?_ ?_ ?_ ?_
  · intro unpinned
    have none := unpinned v hv
    rw [View.isPinned, Option.isSome_eq_false_iff, Option.isNone_iff_eq_none] at none
    simp [View.pinned, none]
  · intro w pins hw hpins
    cases hv.symm.trans hw
    refine ⟨h.unrecord hv, ?_⟩
    rw [View.pinned, hpins]
    rfl
  · rintro w hw c cs t ⟨numbered, left⟩
    cases hv.symm.trans hw
    refine ⟨numbered.unpinPart view v.name v.engine c, left ▸ ?_⟩
    rw [numbered.heldBy_unpinPart, List.filter_filter]
    refine List.filter_congr ?_
    intro d _
    simp only [List.map_cons, List.mem_cons, not_or, Bool.decide_and, Bool.and_comm]
  · rintro w _ t ⟨_, left⟩
    exact (by simp : (t.heldBy v.engine).filter (fun d => d.id ∉ [].map Constraint.id) =
      t.heldBy v.engine).symm.trans left

/-- The release of a view is reported once, after the removals that failed. -/
theorem unpin_reports {view : ViewId} {v : View K} (hv : s.views[view]? = some v)
    (pinned : v.isPinned = true) :
    ∃ refused, (∀ event ∈ refused, ∃ error, event = Event.unpinRefused view error) ∧
      (s.unpin view).log = s.log ++ refused ++ [.unpinned view v.name] := by
  refine unpin_induction
    (Q := fun t => ∃ refused, (∀ event ∈ refused, ∃ error, event = Event.unpinRefused view error) ∧
      t.log = s.log ++ refused ++ [.unpinned view v.name])
    (fun _ _ t => ∃ refused, (∀ event ∈ refused, ∃ error, event = Event.unpinRefused view error) ∧
      t.log = s.log ++ refused) ?_ ?_ ?_ ?_
  · exact fun unpinned => absurd ((unpinned v hv).symm.trans pinned) Bool.false_ne_true
  · exact fun _ _ _ _ => ⟨[], List.forall_mem_nil _, (List.append_nil _).symm⟩
  · rintro w _ c _ t ⟨first, hfirst, log⟩
    obtain ⟨others, hothers, log'⟩ := unpinPart_reports view w.name w.engine t c
    refine ⟨first ++ others, fun event he => ?_, by rw [log', log, List.append_assoc]⟩
    exact (List.mem_append.1 he).elim (hfirst event) (hothers event)
  · rintro w hw t ⟨refused, hrefused, log⟩
    cases hv.symm.trans hw
    exact ⟨refused, hrefused, congrArg (· ++ [Event.unpinned view v.name]) log⟩

/-- Releasing a view removes its pins from the record and from its solver, and nothing else from
either, whatever the solver answers. -/
theorem Numbered.unpin_released (h : Numbered [] s) {view : ViewId} {v : View K}
    (hv : s.views[view]? = some v) : Released s view v (s.unpin view) where
  views := (unpin_records s view).views
  constraints := (unpin_records s view).constraints
  engines i hi := unpin_engines hv hi
  held c := by
    rw [h.unpin_heldBy hv, List.mem_filter, decide_eq_true_iff]
    refine and_congr_right fun hc => not_congr ⟨h.mem_pinned_of_id hv hc, ?_⟩
    exact fun hpin => List.mem_map_of_mem hpin
  log := unpin_reports hv

/-- Releasing a view that has no pins on record does nothing. -/
theorem unpin_of_released {s t : Scene K} {view : ViewId} {v : View K}
    (h : Released s view v t) (hv : s.views[view]? = some v) : t.unpin view = t :=
  unpin_of_unpinned (h.view hv) rfl

end Scene

end ViewConstraints

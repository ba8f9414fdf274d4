import ViewConstraints.Proofs.Scene.Repinned
import ViewConstraints.Proofs.Scene.Released
import ViewConstraints.Proofs.Scene.Unused

/-!
# Views that are released and held again

What an engine learns of its solver it learns from reads, and a release is not one (`unpin_values`).
So a view that is released and held again, and has nothing in use in between, is held at what was
learnt of it before (`setPinned_pinnedTo`): at the frame it had if that was read, and otherwise at
what was read of the view the last time, or at zero.
-/

namespace ViewConstraints

open Linear Simplex
open scoped List

namespace Scene

variable {K : Type} [Scalar K] {s t : Scene K} {view : ViewId} {v : View K}

/-! ## What is learnt -/

/-- Taking a constraint out of a solver does not touch the values learnt before. -/
theorem removeLinear_values (s : Scene K) (i : EngineId) (c : Constraint K) :
    (s.removeLinear i c).2.engines.map Engine.values = s.engines.map Engine.values := by
  unfold removeLinear
  split
  · rfl
  next e he => exact map_set_of_eq he rfl

theorem unpinPart_values (view : ViewId) (name : String) (i : EngineId) (s : Scene K)
    (c : Constraint K) :
    (unpinPart view name i s c).engines.map Engine.values = s.engines.map Engine.values := by
  have values := removeLinear_values s i c
  unfold unpinPart
  split <;> rename_i hr <;> rw [hr] at values <;> exact values

/-- A release teaches no engine anything. -/
theorem unpin_values (s : Scene K) (view : ViewId) :
    (s.unpin view).engines.map Engine.values = s.engines.map Engine.values := by
  refine unpin_induction (Q := fun t => t.engines.map Engine.values = _)
    (fun _ _ t => t.engines.map Engine.values = s.engines.map Engine.values) (fun _ => rfl)
    (fun _ _ _ _ => rfl) ?_ fun _ _ _ h => h
  exact fun v _ c _ t h => (unpinPart_values view v.name v.engine t c).trans h

/-- A report says nothing of an unknown that is not in use. -/
theorem Engine.refresh_value_of_unused {e : Engine K} {x : Variable}
    (unused : e.solver.symbolOf x = none) : e.refresh.value x = e.value x := by
  have silent : e.refresh.solver.reportedOf x = none := by
    have still : e.refresh.solver.symbolOf x = none :=
      (Solver.symbolOf_fetchChanges e.solver x).trans unused
    cases hr : e.refresh.solver.reportedOf x with
    | none => rfl
    | some r =>
      obtain ⟨σ, hσ⟩ := Solver.exists_symbolOf_of_reportedOf hr
      rw [still] at hσ
      cases hσ
  rcases e.refresh_learnt x with same | ⟨r, reported, -⟩
  · exact congrArg (Option.getD · 0.0) same
  · rw [silent] at reported
    cases reported

/-- The frame of a view is made of the values learnt. -/
theorem Engine.frameOf_of_values {e f : Engine K} (h : f.values = e.values) (view : ViewId) :
    f.frameOf view = e.frameOf view := by
  simp only [frameOf, value, h]

/-- The frame that is read is the one that the engine has learnt from then on. -/
theorem frameOf_frame {e : Engine K} (hv : (s.frame view).2.views[view]? = some v)
    (he : (s.frame view).2.engines[v.engine]? = some e) : e.frameOf view = (s.frame view).1 := by
  rw [(frame_records s view).views] at hv
  unfold frame at he ⊢
  rw [hv, Option.bind_some] at he ⊢
  cases hd : s.engines[v.engine]? with
  | none =>
    rw [hd, Option.map_none] at he
    rw [hd] at he
    cases he
  | some d =>
    rw [hd, Option.map_some] at he
    rw [List.getElem?_set_self (List.getElem?_eq_some_iff.1 hd).1] at he
    cases he
    rfl

/-- A view that has nothing in use is read as it was learnt. -/
theorem frame_of_unused {e : Engine K} (hv : s.views[view]? = some v)
    (he : s.engines[v.engine]? = some e) (unused : ∀ q, e.solver.symbolOf ⟨view, q⟩ = none) :
    (s.frame view).1 = e.frameOf view := by
  have read : (s.frame view).1 = e.refresh.frameOf view := by
    rw [frame, hv, Option.bind_some, he, Option.map_some]
  rw [read, Engine.frameOf, Engine.frameOf]
  simp only [Engine.refresh_value_of_unused (unused _)]

/-! ## Held at a frame -/

/-- The pins on record for a view are one for each part of a frame, in order, and the solver of its
engine holds them all. -/
def PinnedTo (s : Scene K) (view : ViewId) (v : View K) (rect : Rect K) : Prop :=
  List.Forall₂ (fun part c => (∃ n, c = pinConstraint n view part) ∧ c ∈ s.heldBy v.engine)
    (frameParts rect) v.pinned

/-- A view that is held again with nothing in use is held at the frame that is read. All four pins are
granted, since an unknown that comes into use is bound by nothing. -/
theorem setPinned_pinnedTo [UnitScalar K] (hs : Orderly s)
    (accounted : Accounted 0 [] (s.setPinned view true)) (hv : s.views[view]? = some v)
    (hp : v.isPinned = false) (clean : (s.setPinned view true).Clean) {e : Engine K}
    (he : s.engines[v.engine]? = some e) (unused : ∀ q, e.solver.symbolOf ⟨view, q⟩ = none) :
    ∃ w, (s.setPinned view true).views[view]? = some w ∧ w.isPinned = true ∧
      (s.setPinned view true).PinnedTo view w (s.frame view).1 := by
  obtain ⟨-, -, w, hw, hpins, -⟩ := setPinned_repinning hv hp
  obtain ⟨granted, tried⟩ := foldl_pinPart_tried view v.name v.engine
    (Quantity.all.map fun q => (q, (s.frame view).1.component q))
    ([], (s.frame view).2.modifyView view fun v => { v with frame := (s.frame view).1 })
  have pins : w.pins = some (granted.map fun p => pinConstraint p.1 view p.2) :=
    hpins.trans (congrArg some (tried.pins.trans (List.nil_append _)))
  have pinned : w.pinned = granted.map fun p => pinConstraint p.1 view p.2 := by
    rw [View.pinned, pins, Option.getD_some]
  -- All four quantities are accepted, so none of the parts is missing.
  have whole : granted.map Prod.snd = frameParts (s.frame view).1 := by
    refine tried.sublist.eq_of_length_le ?_
    have all : Quantity.all.length ≤ w.accepted.length :=
      (List.subperm_of_subset (by decide : Quantity.all.Nodup) fun q _ =>
        (setPinned_of_unused hs hv hp clean hw he unused q).1).length_le
    rw [accepted_of_granted pins] at all
    simpa using all
  refine ⟨w, hw, by rw [View.isPinned, pins]; rfl, ?_⟩
  rw [PinnedTo, ← whole, pinned, List.forall₂_map_left_iff, List.forall₂_map_right_iff,
    List.forall₂_same]
  intro p hp
  have held : pinConstraint p.1 view p.2 ∈ w.pinned := pinned ▸ List.mem_map_of_mem hp
  exact ⟨⟨p.1, rfl⟩, (accounted.heldBy_perm w.engine).mem_iff.2 (mem_inForce_of_pinned hw held)⟩

/-- What has become of a view of the scene `s` that was released and held again in the scene `t`;
`e` is what its engine was in `s`. -/
structure HeldAgain (s t : Scene K) (view : ViewId) (v : View K) (e : Engine K) : Prop where
  /-- The view is held, on all its quantities, at the frame that the engine had learnt. -/
  pinned : ∃ w, t.views[view]? = some w ∧ w.isPinned = true ∧ t.PinnedTo view w (e.frameOf view)
  /-- This is the frame that is read next. -/
  read : ∀ q, Agree ((t.frame view).1.component q) ((e.frameOf view).component q)
  /-- It is what the engine has learnt still, so that doing the same once more changes nothing of
  it. -/
  learnt : ∃ f, t.engines[v.engine]? = some f ∧ f.frameOf view = e.frameOf view

/-- A view that is released and held again at once, with nothing of it left in use in between. Neither
the release nor the reading after it teaches its engine anything of the view, so the view is held at
the frame learnt before. -/
theorem setPinned_heldAgain [UnitScalar K] (hs : Orderly s) (padless : Unpadded view s)
    (free : ∀ r ∈ s.constraints, r.active = true → ¬ r.linear.Mentions view)
    (hv : s.views[view]? = some v) {e : Engine K} (he : s.engines[v.engine]? = some e)
    (released : Accounted 0 [] (s.setPinned view false)) (cleanly : (s.setPinned view false).Clean)
    (accounted : Accounted 0 [] ((s.setPinned view false).setPinned view true))
    (clean : ((s.setPinned view false).setPinned view true).Clean) :
    HeldAgain s ((s.setPinned view false).setPinned view true) view v e := by
  have gone : Released s view v (s.setPinned view false) := hs.numbered.unpin_released hv
  have padless' : Unpadded view (s.setPinned view false) := padless.unpin hs.numbered view cleanly
  have hs' : Orderly (s.setPinned view false) := orderly_stable.setPinned s view false hs
  have values : (s.setPinned view false).engines.map Engine.values = s.engines.map Engine.values :=
    unpin_values s view
  generalize s.setPinned view false = u at *
  have hu := gone.view hv
  have hp : ({ v with pins := none } : View K).isPinned = false := rfl
  obtain ⟨d, hd, same⟩ : ∃ d, u.engines[v.engine]? = some d ∧ d.values = e.values := by
    have learnt : (u.engines.map Engine.values)[v.engine]? = some e.values := by
      rw [values, List.getElem?_map, he]
      rfl
    rwa [List.getElem?_map, Option.map_eq_some_iff] at learnt
  have unused (q : Quantity) : d.solver.symbolOf ⟨view, q⟩ = none :=
    padless'.unused released hs'.pins hu rfl (gone.constraints ▸ free) hd q
  have read : (u.frame view).1 = e.frameOf view :=
    (frame_of_unused hu hd unused).trans (Engine.frameOf_of_values same view)
  refine ⟨?_, ?_, ?_⟩
  · exact read ▸ setPinned_pinnedTo hs' accounted hu hp clean hd unused
  · obtain ⟨-, -, w, hw, -⟩ := setPinned_repinning hu hp
    intro q
    exact read ▸ (setPinned_of_unused hs' hu hp clean hw hd unused q).2
  · obtain ⟨engines, -⟩ := setPinned_repinning hu hp
    obtain ⟨f, hf, -, learnt⟩ := repinning_engine hu hd Quantity.all
    rw [← engines] at hf
    refine ⟨f, hf, ?_⟩
    rw [Engine.frameOf_of_values learnt, ← read, frame, hu, Option.bind_some, hd]
    rfl

end Scene

end ViewConstraints

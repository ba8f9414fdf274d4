import ViewConstraints.Proofs.Scene.Frames
import ViewConstraints.Proofs.Session.Runs

/-!
# Frames and the current solution

In every state of a session, refusals or not, reading a frame gives for each unknown of a held
constraint the value it has in the current solution, exactly if the unknown was reported since it
came into use or the number read is zero (`Session.frame_component_agree_iff`). The one way to go
wrong is an unknown that leaves its solver with a value that was learnt, comes back and is zero from
then on (`Session.frame_width_stale`).
-/

namespace ViewConstraints

open Linear Scene

namespace Session

variable {K : Type} [Scalar K]

/-- What is read for an unknown of a held constraint agrees with the current solution exactly if the
unknown was reported since it came into use, by this reading at the latest, or zero is read. -/
theorem frame_component_agree_iff [LawfulScalar K] (config : Config K) (steps : List (Step K))
    {view : ViewId} {v : View K} {e : Engine K} {c : Constraint K} {q : Quantity}
    (hv : ((start config).run steps).scene.views[view]? = some v)
    (he : ((start config).run steps).scene.engines[v.engine]? = some e)
    (hc : c ∈ e.solver.constraints) (hq : ⟨view, q⟩ ∈ c.mentioned) :
    let read := (((start config).run steps).scene.frame view).1.component q
    ∃ σ, e.solver.symbolOf ⟨view, q⟩ = some σ ∧
      (Agree read (e.solver.valueOf σ) ↔
        (e.refresh.solver.reportedOf ⟨view, q⟩).isSome = true ∨ Agree read 0.0) := by
  intro read
  obtain ⟨config', root, hreach⟩ := start_run_reaches config steps he
  have faithful := (Engine.create_faithful config' root).reaches hreach
  have hread : read = e.refresh.value ⟨view, q⟩ := frame_component hv he q
  rw [hread]
  exact faithful.value_agree_iff hc hq

/-- A card whose frame is read while it is pinned and again when it is released, and whose width is
then fixed. -/
def widthFixedAfterReading (width : Rat) : List (Step Rat) :=
  [.addView 0 "card" ⟨5, 6, 100, 50⟩,
    .frame 1,
    .setPinned 1 false,
    .frame 1,
    .relate ⟨1, .width, false⟩ (.equalConstant width)]

/-- `frame_component_agree_iff` where the width comes back with a value that is reported. -/
theorem frame_component_agree_iff_widthFixed :
    ∃ v e, ∃ c ∈ e.solver.constraints, ⟨1, .width⟩ ∈ c.mentioned ∧
      ((start Config.standard).run (widthFixedAfterReading 80)).scene.views[1]? = some v ∧
      ((start Config.standard).run (widthFixedAfterReading 80)).scene.engines[v.engine]? = some e ∧
      let read :=
        (((start Config.standard).run (widthFixedAfterReading 80)).scene.frame 1).1.component .width
      ∃ σ, e.solver.symbolOf ⟨1, .width⟩ = some σ ∧
        (Agree read (e.solver.valueOf σ) ↔
          (e.refresh.solver.reportedOf ⟨1, .width⟩).isSome = true ∨ Agree read 0.0) := by
  obtain ⟨v, hv, hengine⟩ := Option.map_eq_some_iff.1 <| show
    ((start Config.standard).run (widthFixedAfterReading 80)).scene.views[1]?.map View.engine = some 0
    by decide +kernel
  obtain ⟨e, he, held⟩ := Option.map_eq_some_iff.1 <| show
    ((start Config.standard).run (widthFixedAfterReading 80)).scene.engines[0]?.map
      (fun e => decide (∃ c ∈ e.solver.constraints, ⟨1, .width⟩ ∈ c.mentioned)) = some true
    by decide +kernel
  obtain ⟨c, hc, hq⟩ := of_decide_eq_true held
  rw [← hengine] at he
  exact ⟨v, e, c, hc, hq, hv, he,
    frame_component_agree_iff .standard (widthFixedAfterReading 80) hv he hc hq⟩

/-- A width that comes back as zero is read as it was when it was learnt, against an active constraint
and the current solution. Nothing was refused. -/
theorem frame_width_stale :
    (start Config.standard).refusals (widthFixedAfterReading 0) = [] ∧
    ((start Config.standard).run (widthFixedAfterReading 0)).isActive 0 = true ∧
    (((start Config.standard).run (widthFixedAfterReading 0)).scene.frame 1).1.component .width = 100 ∧
    ∃ e, ((start Config.standard).run (widthFixedAfterReading 0)).scene.engines[0]? = some e ∧
      (∃ c ∈ e.solver.constraints, ⟨1, .width⟩ ∈ c.mentioned) ∧
      ∃ σ, e.solver.symbolOf ⟨1, .width⟩ = some σ ∧ e.solver.valueOf σ = 0 := by
  refine ⟨by decide +kernel, by decide +kernel, by decide +kernel, ?_⟩
  obtain ⟨e, he, zero⟩ := Option.map_eq_some_iff.1 <| show
    ((start Config.standard).run (widthFixedAfterReading 0)).scene.engines[0]?.map
      (fun e => decide ((∃ c ∈ e.solver.constraints, ⟨1, .width⟩ ∈ c.mentioned) ∧
        e.solver.symbolOf ⟨1, .width⟩ = some ⟨17, .external⟩ ∧
        e.solver.valueOf ⟨17, .external⟩ = 0)) = some true
    by decide +kernel
  obtain ⟨hc, hσ, hzero⟩ := of_decide_eq_true zero
  exact ⟨e, he, hc, _, hσ, hzero⟩

end Session

end ViewConstraints

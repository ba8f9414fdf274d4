import ViewConstraints.Proofs.Scene.Engines
import ViewConstraints.Proofs.Scene.Released
import ViewConstraints.Proofs.Session.Repinned

/-!
# Releasing views, in every state

In every state of a session a view that is released has no pin left, neither on record nor in its
solver, even if the solver failed on the way, and nothing but these pins has gone
(`Session.release_complete`).
-/

namespace ViewConstraints

open Linear Scene

namespace Session

section

variable {K : Type} [Scalar K]

theorem run_setPinned {s : Session K} {view : ViewId} {v : View K}
    (hv : s.scene.views[view]? = some v) (enabled : Bool) :
    (s.run [.setPinned view enabled]).scene = s.scene.setPinned view enabled :=
  perform_setPinned hv enabled

/-- In every state of a session, releasing a view takes all its pins off the record and out of its
solver, whatever the solver answers, and changes no other record, no activity, and nothing else that
a solver holds. To release it again does nothing, and a layout block on it starts from there. -/
theorem release_complete (config : Config K) (steps : List (Step K)) :
    let s := (start config).run steps
    ∀ view v, s.scene.views[view]? = some v →
      let t := s.run [.setPinned view false]
      Released s.scene view v t.scene ∧
      (∀ c ∈ v.pinned, c ∉ t.scene.heldBy v.engine) ∧
      t.perform (.setPinned view false) = (.flag false, t) ∧
      ∀ entries, Scene.host.layout view entries s.scene =
        Scene.host.runEntries view {} entries t.scene := by
  intro s view v hv t
  have numbered : Numbered [] s.scene := (run_evolves steps (start_evolves config).1).1
  have ht : t.scene = s.scene.setPinned view false := run_setPinned hv false
  have released : Released s.scene view v t.scene := by
    rw [ht]
    exact numbered.unpin_released hv
  have hw := released.view hv
  refine ⟨released, ?_, ?_, ?_⟩
  · intro c hc held
    exact ((released.held c).1 held).2 hc
  · have again : t.scene.setPinned view false = t.scene := unpin_of_released released hv
    rw [perform, withView, hw]
    dsimp only
    rw [again, hw]
    rfl
  · intro entries
    rw [ht]
    rfl

end

/-- A card whose width is asked for at infinity while the card is held. -/
def widthAtInfinity : Session Float :=
  (start (Config.standard.set (.priority .weak))).run
    [.addView 0 "card" ⟨64, 0, 32, 1⟩, .makeFixed ⟨1, .width, false⟩ (1 / 0), .setActive 0 true]

/-- `release_complete` where the solver fails twice on the way. -/
theorem release_complete_widthAtInfinity :
    (widthAtInfinity.run [.setPinned 1 false]).scene.causes.map EngineError.Cause.isInternal =
      [true, true] ∧
    ∃ v, widthAtInfinity.scene.views[1]? = some v ∧ v.pinned.length = 4 ∧
      Released widthAtInfinity.scene 1 v (widthAtInfinity.run [.setPinned 1 false]).scene ∧
      ∀ c ∈ v.pinned, c ∉ (widthAtInfinity.run [.setPinned 1 false]).scene.heldBy v.engine := by
  have pins : widthAtInfinity.scene.views[1]?.map (fun v : View Float => v.pinned.length) =
      some 4 := by
    decide +kernel
  obtain ⟨v, hv, four⟩ := Option.map_eq_some_iff.1 pins
  have failed : (widthAtInfinity.run [.setPinned 1 false]).scene.causes.map
      EngineError.Cause.isInternal = [true, true] := by
    decide +kernel
  unfold widthAtInfinity at hv failed ⊢
  obtain ⟨released, gone, -⟩ := release_complete (Config.standard.set (.priority .weak)) _ 1 v hv
  exact ⟨failed, v, hv, four, released, gone⟩

end Session

end ViewConstraints

import ViewConstraints.Proofs.Scene.Deactivation
import ViewConstraints.Proofs.Session.Runs

/-!
# Deactivation is not atomic

A request for an active constraint to be inactive is granted, and then the constraint is neither
active nor held, or it is refused, and then the constraint counts as active and is not held
(`Session.deactivation_outcome`). After a refusal mark and solver disagree for the rest of the
session: every later attempt is answered with the error that the solver does not know the
constraint. Sums of finite numbers that are out of range are enough for a solver to fail
(`Session.deactivation_loses_constraint`).
-/

namespace ViewConstraints

open Linear Scene

namespace Session

section

variable {K : Type} [Scalar K] {c : ConstraintId} {r : AnchorConstraint K}

/-- A lost constraint stays lost over a run. -/
theorem run_lost (steps : List (Step K)) {s : Session K} (hs : Numbered [] s.scene)
    (h : Lost c r s.scene) : Numbered [] (s.run steps).scene ∧ Lost c r (s.run steps).scene := by
  have run := run_stable (lost_stable (c := c) (r := r))
    (fun _ d active => ⟨fun hs => hs.trySetActive d active, fun hs h => h.trySetActive hs d active⟩)
    steps s
  exact ⟨run.1 hs, run.2 hs h⟩

/-- The attempt to make a lost constraint inactive is answered with the error that it is not known,
and changes nothing. -/
theorem perform_lost {s : Session K} (hs : Numbered [] s.scene) (h : Lost c r s.scene) {place : Nat}
    (hplace : s.kept[place]? = some c) : s.perform (.trySetActive place false) =
      (.attempt (some ⟨r.relationship, .unknownConstraint⟩) true, s) := by
  have outcome := hs.deactivation h.record h.active
  have active : s.scene.isActive c = true := by
    rw [Scene.isActive, h.record]
    exact h.active
  simp only [perform, withKept, hplace]
  generalize s.scene.trySetActive c false = a at outcome ⊢
  cases outcome with
  | granted held => exact absurd held h.unheld
  | failed _ held => exact absurd held h.unheld
  | lost =>
    dsimp only
    rw [active]
    rfl

/-- In every state of a session, the attempt to make an active constraint inactive takes it out of
its solver. If it is granted, the constraint was held and is inactive. If it is refused, the
constraint had been lost before, or the solver failed from within; it counts as active from then on
without being held, and every further attempt is refused for the reason that the solver does not
know the constraint. -/
theorem deactivation_outcome (config : Config K) (steps : List (Step K)) :
    let s := (start config).run steps
    ∀ place c r, s.kept[place]? = some c → s.scene.constraints[c]? = some r → r.active = true →
      let answer := (s.perform (.trySetActive place false)).1
      let t := s.run [.trySetActive place false]
      r.linear ∉ t.scene.heldBy r.engine ∧
      (answer = .attempt none false ∧ t.scene.isActive c = false ∧
          r.linear ∈ s.scene.heldBy r.engine ∨
        ∃ cause, answer = .attempt (some ⟨r.relationship, cause⟩) true ∧
          (r.linear ∉ s.scene.heldBy r.engine ∧ cause = .unknownConstraint ∨
            r.linear ∈ s.scene.heldBy r.engine ∧ ∃ message, cause = .internal message) ∧
          ∀ more, Lost c r (t.run more).scene ∧
            ∀ place', (t.run more).kept[place']? = some c →
              (t.run more).perform (.trySetActive place' false) =
                (.attempt (some ⟨r.relationship, .unknownConstraint⟩) true, t.run more)) := by
  intro s place c r hplace hr active answer t
  have numbered : Numbered [] s.scene := (run_evolves steps (start_evolves config).1).1
  have numbered' : Numbered [] t.scene := (run_evolves [.trySetActive place false] numbered).1
  have later (h : Lost c r t.scene) (more : List (Step K)) : Lost c r (t.run more).scene ∧
      ∀ place', (t.run more).kept[place']? = some c →
        (t.run more).perform (.trySetActive place' false) =
          (.attempt (some ⟨r.relationship, .unknownConstraint⟩) true, t.run more) := by
    obtain ⟨numbered, lost⟩ := run_lost more numbered' h
    exact ⟨lost, fun place' hplace' => perform_lost numbered lost hplace'⟩
  have outcome := numbered.deactivation hr active
  generalize ha : s.scene.trySetActive c false = a at outcome
  cases outcome with
  | @granted u held left hu =>
    have inactive : u.isActive c = false := by rw [Scene.isActive, hu]; rfl
    have performed : s.perform (.trySetActive place false) =
        (.attempt none false, s.withScene u) := by
      simp only [perform, withKept, hplace, ha, inactive]
    have ht : t.scene = u := congrArg (fun p => p.2.scene) performed
    rw [ht]
    exact ⟨left, .inl ⟨congrArg Prod.fst performed, inactive, held⟩⟩
  | @failed u message held lost =>
    have flagged : u.isActive c = true := by rw [Scene.isActive, lost.record]; exact lost.active
    have performed : s.perform (.trySetActive place false) =
        (.attempt (some ⟨r.relationship, .internal message⟩) true, s.withScene u) := by
      simp only [perform, withKept, hplace, ha, flagged]
    have ht : t.scene = u := congrArg (fun p => p.2.scene) performed
    refine ⟨ht ▸ lost.unheld, .inr ⟨_, congrArg Prod.fst performed, .inr ⟨held, message, rfl⟩, ?_⟩⟩
    exact later (ht ▸ lost)
  | lost lost =>
    have performed := perform_lost numbered lost hplace
    have ht : t = s := congrArg Prod.snd performed
    refine ⟨ht ▸ lost.unheld, .inr ⟨_, congrArg Prod.fst performed, .inl ⟨lost.unheld, rfl⟩, ?_⟩⟩
    exact later (ht ▸ lost)

end

/-- A card whose trailing edge is out of the range of doubles, though its frame is not, and a
constraint that asks for the edge to be where the screen begins. -/
def trailingOutOfRange : Session Float :=
  (start (Config.standard.set (.priority .strong))).run
    [.addView 0 "card" ⟨1e308, 0, 1e308, 0⟩,
      .make ⟨0, .leading, false⟩ .equal ⟨1, .trailing, false⟩ 0,
      .trySetActive 0 true]

/-- `deactivation_outcome` where the solver fails. -/
theorem deactivation_outcome_trailingOutOfRange :
    ∃ r, trailingOutOfRange.kept[0]? = some 0 ∧ trailingOutOfRange.scene.constraints[0]? = some r ∧
      r.active = true ∧
      r.linear ∉ (trailingOutOfRange.run [.trySetActive 0 false]).scene.heldBy r.engine := by
  have flagged : trailingOutOfRange.scene.constraints[0]?.map
      (fun r : AnchorConstraint Float => r.active) = some true := by
    decide +kernel
  have kept : trailingOutOfRange.kept[0]? = some 0 := by decide +kernel
  obtain ⟨r, hr, active⟩ := Option.map_eq_some_iff.1 flagged
  unfold trailingOutOfRange at hr kept ⊢
  obtain ⟨left, -⟩ :=
    deactivation_outcome (Config.standard.set (.priority .strong)) _ 0 0 r kept hr active
  exact ⟨r, kept, hr, active, left⟩

/-- A refused deactivation that is not undone: the constraint is held before and not after, counts
as active before and after, and the next attempt is answered as if it had never been activated. -/
theorem deactivation_loses_constraint :
    trailingOutOfRange.scene.constraints.map (fun r => (r.active, r.linear.id)) = [(true, 8)] ∧
    (trailingOutOfRange.scene.heldBy 0).map Constraint.id = [0, 1, 2, 3, 4, 5, 6, 7, 8] ∧
    (trailingOutOfRange.answers [.trySetActive 0 false, .trySetActive 0 false]).map Answer.cause? =
      [some (.internal "Failed to find leaving row."), some .unknownConstraint] ∧
    (trailingOutOfRange.run [.trySetActive 0 false]).scene.constraints.map
      (fun r => (r.active, r.linear.id)) = [(true, 8)] ∧
    ((trailingOutOfRange.run [.trySetActive 0 false]).scene.heldBy 0).map Constraint.id =
      [0, 1, 2, 3, 4, 5, 6, 7] := by
  decide +kernel

end Session

end ViewConstraints

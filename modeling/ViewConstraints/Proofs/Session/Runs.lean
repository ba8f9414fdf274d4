import ViewConstraints.Proofs.Scene.InForce

/-!
# Runs without a failure from within

`Session.refusals` collects every refusal of a run, whether it was answered or reported. As long as
none of them is a failure of a solver from within, what the solvers hold is what is in force in every
state of the run (`held_perm_inForce`), and no request is ever refused as a duplicate or as unknown.
-/

namespace ViewConstraints

open Linear Scene
open scoped List

namespace Session

section

variable {K : Type}

/-- The refusal that an answer is about. -/
def Answer.cause? : Answer K → Option EngineError.Cause
  | .attempt (some error) _ => error.cause
  | _ => none

end

variable {K : Type} [Scalar K]

/-- All refusals of a run, answered or reported, and those reported before it. -/
def refusals (s : Session K) (steps : List (Step K)) : List EngineError.Cause :=
  (s.answers steps).filterMap Answer.cause? ++ (s.run steps).scene.causes

theorem run_append (s : Session K) (steps rest : List (Step K)) :
    s.run (steps ++ rest) = (s.run steps).run rest :=
  List.foldl_append

theorem answers_append (steps rest : List (Step K)) (s : Session K) :
    s.answers (steps ++ rest) = s.answers steps ++ (s.run steps).answers rest := by
  induction steps generalizing s with
  | nil => rfl
  | cons step steps ih => exact congrArg (_ :: ·) (ih _)

/-- Only a request whose refusal is not reported has it answered. -/
theorem perform_cause? (s : Session K) (step : Step K)
    (h : ∀ place active, step ≠ .trySetActive place active) :
    (s.perform step).1.cause? = none := by
  have answerKept (s : Session K) (c : ConstraintId) : (s.answerKept c).1.cause? = none := by
    rw [Session.answerKept, keep]
    cases s.scene.constraints[c]? <;> rfl
  cases step with
  | trySetActive place active => exact absurd rfl (h place active)
  | addEngine config => cases config <;> rfl
  | config engine | addView engine name frame | setAllActive engine places active =>
    simp only [perform, withEngine]
    split <;> rfl
  | view view | frame view | safeFrame view | setInsets view insets | setPinned view enabled
  | inspectView view =>
    simp only [perform, withView]
    split <;> rfl
  | layout view statements | constraints | frames | compare a b | offset anchor shifts => rfl
  | relate lhs relating | make lhs relation rhs offset | makeFixed lhs value => exact answerKept _ _
  | copy place =>
    simp only [perform, withKept]
    split
    · rfl
    · exact answerKept _ _
  | setActive place active =>
    simp only [perform, withKept]
    split <;> rfl
  | inspectConstraint place =>
    simp only [perform, withKept]
    split
    · rfl
    · split <;> rfl

/-- A step without a failure of a solver keeps the stores in step, and is refused as unsatisfiable if
at all. -/
theorem perform_accounted {s : Session K} (h : Accounted 0 [] s.scene) (step : Step K)
    (clean : (s.perform step).2.scene.Clean)
    (answered : ∀ cause, (s.perform step).1.cause? = some cause → cause.isInternal = false) :
    Accounted 0 [] (s.perform step).2.scene ∧
      ∀ cause, (s.perform step).1.cause? = some cause → cause = .unsatisfiable := by
  by_cases hstep : ∃ place active, step = .trySetActive place active
  · obtain ⟨place, active, rfl⟩ := hstep
    simp only [perform, withKept] at answered ⊢
    split
    · exact ⟨h, fun _ hc => by cases hc⟩
    next c hc =>
      have tried := h.trySetActive c active
      simp only [hc] at answered
      generalize s.scene.trySetActive c active = a at tried answered ⊢
      obtain ⟨error | _, t⟩ := a
      · obtain ⟨kept, hcause⟩ := tried fun e he => by cases he; exact answered _ rfl
        exact ⟨kept, fun _ hc => by cases hc; exact hcause error rfl⟩
      · exact ⟨(tried fun _ he => by cases he).1, fun _ hc => by cases hc⟩
  · have hne (place : Nat) (active : Bool) : step ≠ .trySetActive place active :=
      fun heq => hstep ⟨place, active, heq⟩
    refine ⟨(perform_stable Scene.accounted_stable s step ?_).2 clean h, ?_⟩
    · intro place active _ heq
      exact absurd heq (hne place active)
    · rw [perform_cause? s step hne]
      exact fun _ hc => by cases hc

/-- A run only adds to the log. -/
theorem run_log (steps : List (Step K)) (s : Session K) : s.scene.log <+: (s.run steps).scene.log :=
  run_stable Scene.logged_stable Scene.trySetActive_log steps s

/-- What was refused in a run is among what is refused in a longer one. -/
theorem refusals_subset (s : Session K) (steps rest : List (Step K)) :
    s.refusals steps ⊆ s.refusals (steps ++ rest) := by
  intro cause hc
  rw [refusals, answers_append, List.filterMap_append, run_append]
  rcases List.mem_append.1 hc with hc | hc
  · exact List.mem_append_left _ (List.mem_append_left _ hc)
  · exact List.mem_append_right _ (((run_log rest (s.run steps)).filterMap _).subset hc)

/-- What is refused after a step is among what is refused from the step on. -/
theorem refusals_perform_subset (s : Session K) (step : Step K) (steps : List (Step K)) :
    (s.perform step).2.refusals steps ⊆ s.refusals (step :: steps) := by
  intro cause hc
  rw [refusals, answers, List.filterMap_cons]
  rcases List.mem_append.1 hc with hc | hc
  · refine List.mem_append_left _ ?_
    split
    · exact hc
    · exact List.mem_cons_of_mem _ hc
  · exact List.mem_append_right _ hc

/-- A refusal that is answered is one of those of the run. -/
theorem mem_refusals_of_answer {s : Session K} {step : Step K} {cause : EngineError.Cause}
    (h : (s.perform step).1.cause? = some cause) (steps : List (Step K)) :
    cause ∈ s.refusals (step :: steps) := by
  rw [refusals, answers, List.filterMap_cons, h]
  exact .head _

/-- A run without a failure of a solver keeps the stores in step, and whatever it refuses is
unsatisfiable. The induction is on the steps; a failure in a later step would be among the refusals of
the whole run. -/
theorem run_accounted (steps : List (Step K)) {s : Session K} (h : Accounted 0 [] s.scene)
    (internal : ∀ cause ∈ s.refusals steps, cause.isInternal = false) :
    Accounted 0 [] (s.run steps).scene ∧ ∀ cause ∈ s.refusals steps, cause = .unsatisfiable := by
  induction steps generalizing s with
  | nil => exact ⟨h, h.refused⟩
  | cons step steps ih =>
    have later := refusals_perform_subset s step steps
    have clean : (s.perform step).2.scene.Clean :=
      Clean.of_prefix (fun cause hc => internal cause (later (List.mem_append_right _ hc)))
        (run_log steps (s.perform step).2)
    obtain ⟨kept, refused⟩ := perform_accounted h step clean fun cause hc =>
      internal cause (mem_refusals_of_answer hc steps)
    obtain ⟨held, rest⟩ := ih kept fun cause hc => internal cause (later hc)
    refine ⟨held, ?_⟩
    intro cause hc
    rw [refusals, answers, List.filterMap_cons] at hc
    split at hc
    · exact rest cause hc
    next first hfirst =>
      rcases List.mem_cons.1 hc with rfl | hc
      · exact refused _ hfirst
      · exact rest cause hc

/-- Without a failure of a solver the stores are in step in every state of a session. -/
theorem start_run_accounted (config : Config K) (steps : List (Step K))
    (internal : ∀ cause ∈ (start config).refusals steps, cause.isInternal = false) :
    Accounted 0 [] ((start config).run steps).scene := by
  have started : Accounted 0 [] (start config).scene :=
    Scene.accounted_start config <| Clean.of_prefix
      (fun cause hc => internal cause (List.mem_append_right _ hc)) (run_log steps (start config))
  exact (run_accounted steps started internal).1

/-- In every state a session reaches without a failure of a solver from within, each engine's solver
holds the linear constraints of the engine's active constraints and the pins on record for its views,
each once and nothing else; and whatever was refused on the way was unsatisfiable. -/
theorem held_perm_inForce (config : Config K) (steps : List (Step K))
    (internal : ∀ cause ∈ (start config).refusals steps, cause.isInternal = false) :
    (∀ i e, ((start config).run steps).scene.engines[i]? = some e →
      e.solver.constraints ~ ((start config).run steps).scene.inForce i ∧
      (e.solver.constraints.map Constraint.id).Nodup) ∧
    ∀ cause ∈ (start config).refusals steps, cause = .unsatisfiable := by
  have started : Accounted 0 [] (start config).scene :=
    Scene.accounted_start config <| Clean.of_prefix
      (fun cause hc => internal cause (List.mem_append_right _ hc)) (run_log steps (start config))
  obtain ⟨accounted, refused⟩ := run_accounted steps started internal
  refine ⟨?_, refused⟩
  intro i e he
  have hheld : e.solver.constraints ~ ((start config).run steps).scene.inForce i := by
    have inStep := accounted.inStep i
    rwa [seenFrom_nil, List.nil_append, heldBy, he] at inStep
  exact ⟨hheld, (hheld.map Constraint.id).nodup_iff.2 (accounted.numbered.inForce_nodup i)⟩

/-- A card on record at its frame, its width asked for in vain, then released, constrained and read. -/
def widthRefusedThenGranted : List (Step Rat) :=
  [.addView 0 "card" ⟨0, 0, 100, 50⟩,
    .makeFixed ⟨1, .width, false⟩ 200,
    .trySetActive 0 true,
    .setPinned 1 false,
    .trySetActive 0 true,
    .frame 1]

/-- `held_perm_inForce` where a request is refused and granted later. -/
theorem held_perm_inForce_widthRefusedThenGranted :
    (start Config.standard).refusals widthRefusedThenGranted = [.unsatisfiable] ∧
    ∀ i e, ((start Config.standard).run widthRefusedThenGranted).scene.engines[i]? = some e →
      e.solver.constraints ~
        ((start Config.standard).run widthRefusedThenGranted).scene.inForce i ∧
      (e.solver.constraints.map Constraint.id).Nodup :=
  ⟨by decide +kernel, (held_perm_inForce .standard widthRefusedThenGranted (by decide +kernel)).1⟩

end Session

end ViewConstraints

import ViewConstraints.Proofs.Scene.Soft
import ViewConstraints.Proofs.Session.Runs

/-!
# Soft priorities never conflict

In every state of a session a constraint of an engine whose priority is not required can be
activated: the request is never answered with a conflict. As long as no solver fails, the constraints
that a step asks to be active are active after it (`Session.soft_activation`).
-/

namespace ViewConstraints

open Layout Linear Scene

namespace Session

section

variable {K : Type}

/-- The constraints that a step asks to be active: those it makes by relations, or those it names. -/
def Step.activates (s : Session K) : Step K → List ConstraintId
  | .layout _ statements => List.range' s.scene.constraints.length statements.length
  | .relate _ _ => [s.scene.constraints.length]
  | .setActive place true | .trySetActive place true => s.kept[place]?.toList
  | .setAllActive engine places true =>
    if engine < s.scene.engines.length then places.filterMap fun p => s.kept[p]? else []
  | _ => []

/-! ## Constraints that are kept exist -/

/-- What comes to be kept is a constraint that exists. -/
theorem keep_kept (s : Session K) (c : ConstraintId) :
    ∀ d ∈ (s.keep c).2.kept, d ∈ s.kept ∨ d < s.scene.constraints.length := by
  unfold keep
  split
  · exact fun _ => .inl
  next r hr =>
    intro d hd
    rcases List.mem_append.1 hd with hd | hd
    · exact .inl hd
    · exact .inr (List.mem_singleton.1 hd ▸ (List.getElem?_eq_some_iff.1 hr).1)

/-- The same for the constraints of a block. -/
theorem foldl_keepOutcome_kept (outcomes : List (Outcome Anchor ConstraintId)) :
    ∀ acc : List (Option (Kept K)) × Session K, ∀ d ∈ (outcomes.foldl keepOutcome acc).2.kept,
      d ∈ acc.2.kept ∨ d < acc.2.scene.constraints.length := by
  induction outcomes with
  | nil => exact fun _ _ => .inl
  | cons o outcomes ih =>
    intro acc d hd
    cases o with
    | constraint c =>
      rcases ih _ d hd with hd | hd
      · exact keep_kept acc.2 c d hd
      · exact .inr (keep_scene acc.2 c ▸ hd)
    | anchors | discarded => exact ih (acc.1 ++ [none], acc.2) d hd

end

variable {K : Type} [Scalar K]

/-- A step keeps only constraints that exist. -/
theorem perform_kept (s : Session K) (step : Step K) :
    ∀ d ∈ (s.perform step).2.kept,
      d ∈ s.kept ∨ d < (s.perform step).2.scene.constraints.length := by
  have answered (t : Session K) (c : ConstraintId) : ∀ d ∈ (t.answerKept c).2.kept,
      d ∈ t.kept ∨ d < (t.answerKept c).2.scene.constraints.length := by
    rw [answerKept_scene]
    exact keep_kept t c
  cases step with
  | addEngine config => cases config <;> exact fun _ => .inl
  | layout view statements =>
    intro d hd
    simp only [perform, host_layout, foldl_keepOutcome_scene] at hd ⊢
    exact foldl_keepOutcome_kept _ _ d hd
  | relate lhs relating | make lhs relation rhs offset | makeFixed lhs value =>
    exact answered (s.withScene _) _
  | copy place =>
    simp only [perform, withKept]
    split
    · exact fun _ => .inl
    · exact answered s _
  | config engine | addView engine name frame | setAllActive engine places active =>
    simp only [perform, withEngine]
    split <;> exact fun _ => .inl
  | view view | frame view | safeFrame view | setInsets view insets | setPinned view enabled
  | inspectView view =>
    simp only [perform, withView]
    split <;> exact fun _ => .inl
  | constraints | frames | compare a b | offset anchor shifts => exact fun _ => .inl
  | setActive place active =>
    simp only [perform, withKept]
    split <;> exact fun _ => .inl
  | trySetActive place active =>
    simp only [perform, withKept]
    split
    · exact fun _ => .inl
    next c _ =>
      generalize s.scene.trySetActive c active = r
      obtain ⟨_ | _, scene⟩ := r <;> exact fun _ => .inl
  | inspectConstraint place =>
    simp only [perform, withKept]
    split
    · exact fun _ => .inl
    · split <;> exact fun _ => .inl

/-- No step changes what a constraint, a view or an engine is made with. -/
theorem perform_grows (s : Session K) (step : Step K) : Grows s.scene (s.perform step).2.scene :=
  perform_stable grows_stable s step fun _ active c _ _ =>
    (trySetActive_steady s.scene c active).grows

/-- In every state of a run the constraints kept exist. -/
theorem run_kept (steps : List (Step K)) {s : Session K}
    (h : ∀ c ∈ s.kept, c < s.scene.constraints.length) :
    ∀ c ∈ (s.run steps).kept, c < (s.run steps).scene.constraints.length := by
  induction steps generalizing s with
  | nil => exact h
  | cons step steps ih =>
    refine ih fun c hc => ?_
    rcases perform_kept s step c hc with hc | hc
    · exact Nat.lt_of_lt_of_le (h c hc) (perform_grows s step).length
    · exact hc

/-! ## Runs -/

/-- In every state of a session constraints have the priorities of their engines. -/
theorem start_run_prioritised (config : Config K) (steps : List (Step K)) :
    Prioritised ((start config).run steps).scene := by
  have none_made : (start config).scene.constraints = [] := addEngine_constraints empty config
  have run := run_stable prioritised_stable
    (fun s c active => ⟨fun h => h.trySetActive c active, (trySetActive_steady s c active).grows,
      fun _ h => h.of_steady (trySetActive_steady s c active)⟩) steps (start config)
  refine run.2.2 (start_evolves config).1 ?_
  rw [Prioritised, none_made]
  exact List.forall_mem_nil _

/-- The engines of a session are faithful in every state. -/
theorem start_run_faithful [LawfulScalar K] (config : Config K) (steps : List (Step K)) :
    ∀ e ∈ ((start config).run steps).scene.engines, e.Faithful := by
  intro e he
  obtain ⟨i, hi, rfl⟩ := List.getElem_of_mem he
  obtain ⟨config', root, hreach⟩ := start_run_reaches config steps (List.getElem?_eq_getElem hi)
  exact (Engine.create_faithful config' root).reaches hreach

/-- Without a failure of a solver every state of a session is sturdy. -/
theorem start_run_sturdy [UnitScalar K] (config : Config K) (steps : List (Step K))
    (internal : ∀ cause ∈ (start config).refusals steps, cause.isInternal = false) :
    Sturdy ((start config).run steps).scene :=
  ⟨start_run_accounted config steps internal, start_run_faithful config steps,
    start_run_prioritised config steps⟩

/-! ## Activation -/

section

variable [UnitScalar K]

/-- A step without a failure of a solver makes the soft constraints active that it asks for. What a
block asks for is made after the release of its view, so the log must be clean at that point already,
as it is if it is clean in the end. -/
theorem perform_activates {s : Session K} (h : Sturdy s.scene)
    (kept : ∀ c ∈ s.kept, c < s.scene.constraints.length) (step : Step K)
    (clean : (s.perform step).2.scene.Clean)
    (answered : ∀ cause, (s.perform step).1.cause? = some cause → cause.isInternal = false) :
    ∀ c ∈ step.activates s, c < (s.perform step).2.scene.constraints.length ∧
      ((s.perform step).2.scene.IsSoft c → (s.perform step).2.scene.isActive c = true) := by
  intro c hc
  have grows := perform_grows s step
  -- A constraint that is kept exists before and after.
  have exists_kept {place : Nat} (hplace : s.kept[place]? = some c) :
      c < s.scene.constraints.length := kept c (List.mem_of_getElem? hplace)
  cases step with
  | layout view statements =>
    obtain ⟨new, bound⟩ := List.mem_range'_1.1 hc
    simp only [perform, host_layout, foldl_keepOutcome_scene] at clean ⊢
    have released := setPinned_steady s.scene view false
    have stated := sturdy_stable.stateAll view statements (s.scene.setPinned view false)
    have cleanReleased := clean.of_prefix stated.2.1
    have sturdy := (sturdy_stable.setPinned s.scene view false).2.2 cleanReleased h
    have length := stateAll_length view statements (s.scene.setPinned view false)
    rw [released.length] at length
    exact ⟨length.symm ▸ bound, sturdy.stateAll_active view statements clean (released.length ▸ new)⟩
  | relate lhs relating =>
    obtain rfl := List.mem_singleton.1 hc
    simp only [perform, host_relateAnchor, answerKept_scene] at clean ⊢
    refine ⟨?_, h.state_active lhs relating clean⟩
    exact (state_length s.scene lhs relating).symm ▸ Nat.lt_succ_self _
  | setActive place active =>
    cases active with
    | false => cases hc
    | true =>
      have hplace := Option.mem_toList.1 hc
      have hlt := exists_kept hplace
      refine ⟨Nat.lt_of_lt_of_le hlt grows.length, fun soft => ?_⟩
      have softBefore := (grows.isSoft_iff hlt).1 soft
      simp only [perform, withKept, hplace] at clean ⊢
      exact h.setActive_active softBefore clean
  | trySetActive place active =>
    cases active with
    | false => cases hc
    | true =>
      have hplace := Option.mem_toList.1 hc
      have hlt := exists_kept hplace
      refine ⟨Nat.lt_of_lt_of_le hlt grows.length, fun soft => ?_⟩
      have tried := h.trySetActive_active ((grows.isSoft_iff hlt).1 soft)
      simp only [perform, withKept, hplace] at answered ⊢
      generalize s.scene.trySetActive c true = a at tried answered ⊢
      obtain ⟨error | _, t⟩ := a
      · exact tried fun e he => by cases he; exact answered _ rfl
      · exact tried fun _ he => by cases he
  | setAllActive engine places active =>
    cases active with
    | false => cases hc
    | true =>
      simp only [Step.activates] at hc
      split at hc
      next he =>
        obtain ⟨place, -, hplace⟩ := List.mem_filterMap.1 hc
        have hlt := exists_kept hplace
        refine ⟨Nat.lt_of_lt_of_le hlt grows.length, fun soft => ?_⟩
        have softBefore := (grows.isSoft_iff hlt).1 soft
        simp only [perform, withEngine, List.getElem?_eq_getElem he] at clean ⊢
        exact h.setAllActive_active _ clean hc softBefore
      next => cases hc
  | _ => cases hc

/-- In every state a session reaches, a constraint of an engine whose priority is not required is never
refused as unsatisfiable when it is asked to be active. And if no solver has failed from within, up to
the end of a further step, then each constraint that the step asks to be active, by making it or by
naming it, exists, and is active after the step if the priority of its engine is not required. -/
theorem soft_activation (config : Config K) (steps : List (Step K)) :
    (∀ c r e, ((start config).run steps).scene.constraints[c]? = some r →
      ((start config).run steps).scene.engines[r.engine]? = some e →
      e.config.priority ≠ .required →
      (((start config).run steps).scene.trySetActive c true).1 ≠
        .error ⟨r.relationship, .unsatisfiable⟩) ∧
    ∀ step, (∀ cause ∈ (start config).refusals (steps ++ [step]), cause.isInternal = false) →
      ∀ c ∈ step.activates ((start config).run steps), ∃ r e,
        ((start config).run (steps ++ [step])).scene.constraints[c]? = some r ∧
        ((start config).run (steps ++ [step])).scene.engines[r.engine]? = some e ∧
        (e.config.priority ≠ .required → r.active = true) := by
  refine ⟨?_, ?_⟩
  · intro c r e hr he soft
    obtain ⟨e', he', hpriority⟩ :=
      start_run_prioritised config steps r (List.mem_of_getElem? hr)
    rw [he, Option.some.injEq] at he'
    subst he'
    have faithful := start_run_faithful config steps
    exact fun refused => trySetActive_soft (fun e he => (faithful e he).sound)
      ⟨r, hr, hpriority ▸ soft⟩ _ refused rfl
  · intro step internal c hc
    have sturdy := start_run_sturdy config steps fun cause hcause =>
      internal cause (refusals_subset _ steps [step] hcause)
    have prioritised := start_run_prioritised config (steps ++ [step])
    have kept := run_kept steps (s := start config) nofun
    have last : (start config).run (steps ++ [step]) =
        (((start config).run steps).perform step).2 := run_append ..
    have answered : ∀ cause, (((start config).run steps).perform step).1.cause? = some cause →
        cause.isInternal = false := by
      intro cause hcause
      refine internal cause (List.mem_append_left _ (List.mem_filterMap.2 ⟨_, ?_, hcause⟩))
      rw [answers_append]
      exact List.mem_append_right _ (.head _)
    rw [last] at prioritised ⊢
    have clean : (((start config).run steps).perform step).2.scene.Clean := fun cause hcause =>
      internal cause (List.mem_append_right _ (last.symm ▸ hcause))
    obtain ⟨hlt, active⟩ := perform_activates sturdy kept step clean answered c hc
    have hr := List.getElem?_eq_getElem hlt
    obtain ⟨e, he, hpriority⟩ := prioritised _ (List.getElem_mem hlt)
    exact ⟨_, e, hr, he, fun soft => active_of_isActive hr (active ⟨_, hr, hpriority ▸ soft⟩)⟩

end

/-- The standard screen, but constraints give way to everything else. -/
def weakScreen : Config Float := Config.standard.set (.priority .weak)

/-- A card pinned at the width 100, asked to have the width 200, and about to be asked for 300. -/
def widthAskedForInVain : List (Step Float) :=
  [.addView 0 "card" ⟨0.0, 0.0, 100.0, 50.0⟩,
    .relate ⟨1, .width, false⟩ (.equalConstant 200.0),
    .makeFixed ⟨1, .width, false⟩ 300.0]

/-- `soft_activation` where the pin of a card and two relations contradict each other. -/
theorem soft_activation_widthAskedForInVain :
    (∃ r e, ((start weakScreen).run widthAskedForInVain).scene.constraints[1]? = some r ∧
      ((start weakScreen).run widthAskedForInVain).scene.engines[r.engine]? = some e ∧
      e.config.priority ≠ .required ∧
      (((start weakScreen).run widthAskedForInVain).scene.trySetActive 1 true).1 ≠
        .error ⟨r.relationship, .unsatisfiable⟩) ∧
    (start weakScreen).refusals (widthAskedForInVain ++ [.setActive 1 true]) = [] ∧
    ∃ r e,
      ((start weakScreen).run (widthAskedForInVain ++ [.setActive 1 true])).scene.constraints[1]? =
        some r ∧
      ((start weakScreen).run (widthAskedForInVain ++ [.setActive 1 true])).scene.engines[r.engine]? =
        some e ∧
      (e.config.priority ≠ .required → r.active = true) := by
  have granted : (start weakScreen).refusals (widthAskedForInVain ++ [.setActive 1 true]) = [] := by
    decide +kernel
  have named : 1 ∈ Step.activates ((start weakScreen).run widthAskedForInVain)
      (.setActive 1 true : Step Float) := by
    decide +kernel
  obtain ⟨r, hr, hengine⟩ := Option.map_eq_some_iff.1 <| show
    ((start weakScreen).run widthAskedForInVain).scene.constraints[1]?.map
      AnchorConstraint.engine = some 0 by decide +kernel
  obtain ⟨e, he, hpriority⟩ := Option.map_eq_some_iff.1 <| show
    ((start weakScreen).run widthAskedForInVain).scene.engines[0]?.map
      (fun e => e.config.priority) = some .weak by decide +kernel
  have soft : e.config.priority ≠ .required := by
    rw [hpriority]
    decide
  rw [← hengine] at he
  obtain ⟨satisfiable, activated⟩ := soft_activation weakScreen widthAskedForInVain
  exact ⟨⟨r, e, hr, he, soft, satisfiable 1 r e hr he soft⟩, granted,
    activated (.setActive 1 true) (fun _ hc => by rw [granted] at hc; cases hc) 1 named⟩

end Session

end ViewConstraints

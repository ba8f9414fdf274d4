import ViewConstraints.Proofs.Scene.Activity

/-!
# The log of a session

At every moment of a session the log says of each constraint how it became active and inactive in
turn and how it is now, and of each view how often it was released (`Session.log_truthful`). How a
request for activity shows in the log (`Logged`), and what a relation leaves there, depends only on
how the request ended.
-/

namespace ViewConstraints

open Layout Scene

namespace Session

section

variable {K : Type} [Scalar K]

/-- How often a view is released by steps: those before which it was held and after which it is
not. -/
def releases (view : ViewId) (s : Session K) : List (Step K) → Nat
  | [] => 0
  | step :: rest =>
    (s.scene.releasedIn (s.perform step).2.scene view).toNat + releases view (s.perform step).2 rest

/-- One step: a block releases its view before its statements, which neither hold nor release a
view. -/
theorem perform_tallied (s : Session K) (step : Step K) :
    Tallied s.scene (s.perform step).2.scene := by
  cases hp : step.pinning? with
  | none =>
    refine (perform_stableBase keepsPinned_base s step ?_ ?_ ?_ ?_ ?_).tallied
    · exact fun config _ => addEngine_keepsPinned s.scene config
    · exact fun _ _ _ _ _ => insertView_keepsPinned _ _ _ _ _
    · exact keepsPinned_relates.mono fun _ _ => trivial
    · exact fun _ _ h => absurd (hp.symm.trans h) (Option.some_ne_none _).symm
    · exact fun _ active c _ _ => trySetActive_keepsPinned s.scene c active
  | some asked =>
    cases step with
    | setPinned view enabled =>
      simp only [perform, withView]
      split
      · exact (KeepsPinned.of_views rfl rfl).tallied
      · exact setPinned_tallied s.scene view enabled
    | layout view statements =>
      simp only [perform, host_layout, foldl_keepOutcome_scene]
      refine (setPinned_tallied s.scene view false).keepsPinned
        (setPinned_steady s.scene view false).views_length ?_
      exact keepsPinned_base.stateAll keepsPinned_relates view statements _
        fun _ _ _ _ => trivial
    | _ => cases hp

/-- The reports of releases in a run, by induction on its steps. -/
theorem run_releases (view : ViewId) (steps : List (Step K)) (s : Session K) :
    (s.run steps).scene.releases.count view =
      s.scene.releases.count view + s.releases view steps := by
  induction steps generalizing s with
  | nil => rfl
  | cons step steps ih =>
    have first := perform_tallied s step view
    calc ((s.perform step).2.run steps).scene.releases.count view
      _ = (s.perform step).2.scene.releases.count view +
          (s.perform step).2.releases view steps := ih _
      _ = s.scene.releases.count view + s.releases view (step :: steps) := by
        rw [first, releases, Nat.add_assoc]

/-- A session starts with a log that is silent about activity, and with nothing active. -/
theorem start_truthful (config : Config K) : Truthful (start config).scene :=
  truthful_stable.addEngine Scene.empty config
    ⟨fun _ => .singleton false, fun _ => rfl, rfl⟩

/-- No view has been released at the start of a session. -/
theorem start_releases (config : Config K) (view : ViewId) :
    (start config).scene.releases.count view = 0 :=
  congrArg (List.count view) (addEngine_keepsPinned Scene.empty config).releases

end

/-- How a request for a constraint to be active or inactive shows in a log. -/
inductive Logged (s : Scene Float) (c : ConstraintId) (r : AnchorConstraint Float) (active : Bool)
    (t : Scene Float) : Prop where
  /-- Not at all, if the constraint is as it is asked to be. -/
  | idle : r.active = active → t = s → Logged s c r active t
  /-- By one report of the change, if the solver accepts it. -/
  | granted (event : Event Float) : r.active = !active → (s.trySetActive c active).1 = .ok () →
      t.isActive c = active → t.log = s.log ++ [event] → event.change? = some (c, active) →
      event.level = .debug → event.fields = [("constraint", r.relationship.text)] →
      Logged s c r active t
  /-- By one warning that says which constraint was refused and why; nothing is marked otherwise. -/
  | refused (event : Event Float) (error : EngineError (Relationship Float)) : r.active = !active →
      (s.trySetActive c active).1 = .error error → t.constraints = s.constraints →
      t.log = s.log ++ [event] → event.change? = none → event.level = .warn →
      event.fields = [("constraint", r.relationship.text),
        ("error", (error.map Relationship.text).message)] →
      Logged s c r active t

/-- The one report of a request, and what it says. -/
theorem setActive_logged {s : Scene Float} {c : ConstraintId} {r : AnchorConstraint Float}
    (hr : s.constraints[c]? = some r) (active : Bool) :
    Logged s c r active (s.setActive c active) := by
  have asked := setActive_asked hr active
  generalize s.setActive c active = t at asked
  cases asked with
  | idle same => exact .idle same rfl
  | granted differs accepted marked log =>
    have flagged : t.isActive c = active := by
      rw [Scene.isActive, marked, List.getElem?_modify_eq, hr]
      rfl
    cases active <;> exact .granted _ differs accepted flagged log rfl rfl rfl
  | refused cause differs error unchanged log =>
    exact .refused _ _ differs error unchanged log rfl rfl rfl

/-- In every state of a session the changes of activity reported of a constraint alternate, from
active on, the last of them is how the constraint is marked, and there are as many active
constraints as reports of one kind exceed those of the other; and each view has one report of a
release for each step that released it. In every scene a request for activity shows as it ends, and
a relation leaves one report of that before its own, alone or in a block, whose view is released
first. -/
theorem log_truthful (config : Config Float) (steps : List (Step Float)) :
    let s := ((start config).run steps).scene
    Truthful s ∧
    (∀ view, s.releases.count view = (start config).releases view steps) ∧
    ∀ u : Scene Float,
      (∀ c r active, u.constraints[c]? = some r → Logged u c r active (u.setActive c active)) ∧
      (∀ lhs relating,
        let t := (Scene.host.relateAnchor lhs relating u).2
        ∃ reports, t.log = u.log ++ reports ∧ Stated t u.constraints.length [relating] reports ∧
          reports.map Event.level =
            [if t.isActive u.constraints.length then .debug else .warn, .trace]) ∧
      ∀ view (statements : List (Statement Float)),
        let t := (Scene.host.layout view (statements.map Entry.statement) u).2
        ∃ reports, t.log = (u.setPinned view false).log ++ reports ∧
          Stated t u.constraints.length (statements.map Statement.relating) reports ∧
          reports.map Event.level =
            (List.range' u.constraints.length statements.length).flatMap fun c =>
              [if t.isActive c then .debug else .warn, .trace] := by
  intro s
  have truthful : Truthful s := run_stable truthful_stable
    (fun s c active h => h.trySetActive c active) steps (start config) (start_truthful config)
  refine ⟨truthful, fun view => ?_, fun u =>
    ⟨fun c r active hr => setActive_logged hr active, ?_, ?_⟩⟩
  · rw [run_releases, start_releases, Nat.zero_add]
  · intro lhs relating t
    obtain ⟨r, outcome, constraints, ended, log⟩ := u.state_ended lhs relating
    rw [← host_relateAnchor] at constraints log
    have hr : t.constraints[u.constraints.length]? = some r := by
      rw [constraints, List.getElem?_concat_length]
    have stated : Stated t u.constraints.length [relating] [outcome, .applied relating.report] :=
      .cons hr ended (.nil _)
    exact ⟨_, log, stated, stated.levels⟩
  · intro view statements t
    obtain ⟨-, reports, -, stated, log⟩ := stateAll_stated view statements (u.setPinned view false)
    rw [← host_layout, setPinned_constraints] at stated
    rw [← host_layout] at log
    have levels := stated.levels
    rw [List.length_map] at levels
    exact ⟨reports, log, stated, levels⟩

/-- A card whose width is refused while it is held, granted once it is released, and given up. -/
def widthInTurns : List (Step Float) :=
  [.addView 0 "card" ⟨0, 0, 100, 50⟩,
    .makeFixed ⟨1, .width, false⟩ 200,
    .setActive 0 true,
    .setPinned 1 false,
    .setActive 0 true,
    .setActive 0 false,
    .setPinned 1 false]

/-- `log_truthful` where a request is refused, and others are granted. -/
theorem log_truthful_widthInTurns :
    let s := ((start Config.standard).run widthInTurns).scene
    s.log.map Event.level = [.warn, .debug, .debug, .debug] ∧
    s.changesOf 0 = [true, false] ∧ (false :: s.changesOf 0).IsChain (· ≠ ·) ∧
    s.releases.count 1 = (start Config.standard).releases 1 widthInTurns ∧
    ∃ r, s.constraints[0]? = some r ∧ Logged s 0 r true (s.setActive 0 true) := by
  intro s
  obtain ⟨truthful, released, logged⟩ := log_truthful Config.standard widthInTurns
  have made : s.constraints.length = 1 := by decide +kernel
  have hr : s.constraints[0]? = some s.constraints[0] := List.getElem?_eq_getElem _
  exact ⟨by decide +kernel, by decide +kernel, truthful.alternate 0, released 1, _, hr,
    (logged s).1 0 _ true hr⟩

end Session

end ViewConstraints

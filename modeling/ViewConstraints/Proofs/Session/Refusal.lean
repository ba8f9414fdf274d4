import ViewConstraints.Proofs.Session.Lockstep
import ViewConstraints.Proofs.Session.Runs
import ViewConstraints.Proofs.Simplex.Refusal

/-!
# After a refused activation

A refused activation changes nothing but the solver of the constraint's engine. `Harmless` says when
a later run cannot tell: the solver refused without trying, since it holds the constraint already or
since the constraint contradicts what is required, and in the latter case the run takes none of its
unknowns out of use. Exactly then the session stays in lock-step with the one in which the activation
was not asked for, at the refusal and at the end of the run, and every answer of the run is the same
(`Session.refused_activation`). Any other refusal leaves symbols in the tableau, and what comes with
them can show in later frames (`Session.refused_activation_widthFollowsRoot`).
-/

namespace ViewConstraints

open Linear Simplex

namespace Scene

section

variable {K : Type} {s : Scene K} {i : EngineId} {e f : Engine K} {E : Variable → Nat}

/-- A surplus in the solver of one engine. -/
def surplusAt (i : EngineId) (E : Variable → Nat) : EngineId → Variable → Nat :=
  fun j v => if j = i then E v else 0

/-- A surplus in one engine is one in the scene. -/
theorem surplus_set (he : s.engines[i]? = some e) (h : e.Surplus E f) :
    Surplus (surplusAt i E) s { s with engines := s.engines.set i f } := by
  refine ⟨rfl, List.length_set, ?_⟩
  intro j e' f' he' hf'
  obtain ⟨hi, -⟩ := List.getElem?_eq_some_iff.1 he
  by_cases hj : i = j
  · subst hj
    rw [List.getElem?_set_self hi] at hf'
    rw [he] at he'
    cases he'
    cases hf'
    rw [show surplusAt i E i = E from funext fun v => if_pos rfl]
    exact h
  · rw [List.getElem?_set_ne hj, he'] at hf'
    cases hf'
    rw [show surplusAt i E j = fun _ => 0 from funext fun v => if_neg (Ne.symm hj)]
    exact ⟨rfl, .refl e'.solver⟩

end

variable {K : Type} [Scalar K]

/-- A refused activation changes nothing but the solver of the constraint's engine. -/
theorem trySetActive_refused {s t : Scene K} {c : ConstraintId}
    {error : EngineError (Relationship K)} (h : s.trySetActive c true = (.error error, t)) :
    ∃ (r : AnchorConstraint K) (e : Engine K) (refusal : Refusal),
      s.constraints[c]? = some r ∧ r.active = false ∧ s.engines[r.engine]? = some e ∧
      (e.solver.addConstraint r.linear).1 = .error refusal ∧
      t = { s with engines := s.engines.set r.engine (e.add r.linear).2 } := by
  have switching := trySetActive_switching s c true
  rw [h] at switching
  cases switching with
  | refused r cause hr hinactive hreq =>
    rw [requestActivity, if_pos rfl, addLinear] at hreq
    split at hreq
    next => cases hreq
    next e he =>
      obtain ⟨hanswer, rfl⟩ := Prod.mk.inj hreq
      have answered : Engine.answer (e.solver.addConstraint r.linear).1 = .error cause := hanswer
      refine ⟨r, e, ?_⟩
      cases hadd : (e.solver.addConstraint r.linear).1 with
      | ok _ =>
        rw [hadd] at answered
        cases answered
      | error refusal => exact ⟨refusal, hr, hinactive, he, rfl, rfl⟩

/-- A refused activation of the constraint `r` shows in no later state such as `u`: it was refused
without being tried, and its unknowns have kept their symbols if it is not held. -/
def Harmless (e : Engine K) (r : AnchorConstraint K) (u : Scene K) : Prop :=
  e.solver.holds r.linear.id = true ∨
    e.solver.Contradicts r.linear ∧ ∀ v ∈ r.linear.mentioned,
      (e.solver.symbolOf v).isSome = true ∧ u.symbolOf r.engine v = e.solver.symbolOf v

instance (e : Engine K) (r : AnchorConstraint K) (u : Scene K) : Decidable (Harmless e r u) :=
  inferInstanceAs (Decidable (_ ∨ (_ ∧ _ ∧ _ ∧ _) ∧ _))

end Scene

namespace Session

open Scene

section

variable {K : Type}

theorem Answer.exists_attempt_of_cause {a : Answer K} {cause : EngineError.Cause}
    (h : a.cause? = some cause) : ∃ error active, a = .attempt (some error) active := by
  unfold Answer.cause? at h
  split at h
  next error active => exact ⟨error, active, rfl⟩
  next => cases h

/-- The width in an answer. -/
def Answer.width? : Answer K → Option K
  | .frame rect => some rect.width
  | _ => none

end

variable {K : Type} [Scalar K]

/-- The symbol of an unknown of a session was made before. -/
theorem exists_symbolOf (config : Config K) (steps : List (Step K)) {i : EngineId} {v : Variable}
    {σ : Symbol} (h : ((start config).run steps).scene.symbolOf i v = some σ) :
    ∃ e, ((start config).run steps).scene.engines[i]? = some e ∧ e.solver.symbolOf v = some σ ∧
      σ.id < e.solver.nextSymbol := by
  obtain ⟨e, he, hσ⟩ := Option.bind_eq_some_iff.1 h
  obtain ⟨config', root, hreach⟩ := start_run_reaches config steps he
  refine ⟨e, he, hσ, ?_⟩
  rcases hreach.later.symbols v σ hσ with hnone | ⟨-, hlt⟩
  · cases hnone
  · exact hlt

/-- In a state of a session every symbol in use was given out before, so an unknown that loses its
symbol does not get it back. -/
theorem lasting_of_symbolOf (config : Config K) (steps : List (Step K))
    {E : EngineId → Variable → Nat} {σ : EngineId → Variable → Symbol}
    (h : ∀ i v, 0 < E i v → ((start config).run steps).scene.symbolOf i v = some (σ i v)) :
    Lasting E σ ((start config).run steps).scene :=
  fun i v hv => exists_symbolOf config steps (h i v hv)

/-- A refusal that is harmless to a later run leaves a surplus of mentions behind, of unknowns that
have the same symbols before the run and after it. -/
theorem surplus_of_harmless {e : Engine K} {r : AnchorConstraint K} {u : Scene K}
    (h : Harmless e r u) :
    ∃ E, Solver.Surplus E e.solver (e.solver.addConstraint r.linear).2 ∧
      ∀ v, 0 < E v → ∃ σ, e.solver.symbolOf v = some σ ∧ u.symbolOf r.engine v = some σ := by
  by_cases held : e.solver.holds r.linear.id = true
  · rw [Solver.addConstraint_of_holds held]
    exact ⟨_, .refl e.solver, fun _ hv => absurd hv (Nat.lt_irrefl 0)⟩
  · obtain ⟨contradicts, kept⟩ := h.resolve_left held
    have used : ∀ v ∈ r.linear.mentioned, ∃ σ, e.solver.symbolOf v = some σ := fun v hv =>
      Option.isSome_iff_exists.1 (kept v hv).1
    rw [Solver.addConstraint_of_contradicts (Bool.eq_false_iff.2 held) contradicts]
    refine ⟨_, Solver.mentionAll_surplus r.linear.mentioned used, ?_⟩
    intro v hv
    have hmem := List.count_pos_iff.1 hv
    obtain ⟨σ, hσ⟩ := used v hmem
    exact ⟨σ, hσ, (kept v hmem).2.trans hσ⟩

/-- The converse: if the solver differs in mentions only after a refusal, and a later state `w` of the
session with the refusal differs from a later state `u` of the one without in mentions only, the
refusal was harmless. -/
theorem harmless_of_surplus {e f : Engine K} {r : AnchorConstraint K} {u w : Scene K}
    {refusal : Refusal} (refused : (e.solver.addConstraint r.linear).1 = .error refusal)
    (keyed : e.solver.Keyed) (counted : e.solver.Counted fun _ => 0)
    (before : ∃ E, Solver.Surplus E e.solver (e.solver.addConstraint r.linear).2)
    (hf : w.engines[r.engine]? = some f) (hreach : (e.add r.linear).2.Reaches f)
    (after : ∃ E, Scene.Surplus E u w) : Harmless e r u := by
  by_cases held : e.solver.holds r.linear.id = true
  · exact .inl held
  · have free := Bool.eq_false_iff.2 held
    obtain ⟨contradicts, used⟩ := (Solver.refused_surplus_iff free refused).1 before
    refine .inr ⟨contradicts, ?_⟩
    intro v hv
    obtain ⟨σ, hσ⟩ := used v hv
    refine ⟨by rw [hσ]; rfl, ?_⟩
    -- The surplus of mentions keeps the unknown in use in the session with the refusal.
    have left : (e.add r.linear).2.solver = e.solver.mentionAll r.linear.mentioned :=
      congrArg Prod.snd (Solver.addConstraint_of_contradicts free contradicts)
    have keyed' : (e.add r.linear).2.solver.Keyed := by
      rw [left]
      exact keyed.of_held (Solver.mentionAll_held _ _)
    have counted' : (e.add r.linear).2.solver.Counted fun v => 0 + r.linear.mentioned.count v := by
      rw [left]
      exact counted.mentionAll r.linear.mentioned
    have symbol : (e.add r.linear).2.solver.symbolOf v = some σ := by
      rw [left]
      exact Solver.symbolOf_mentionAll r.linear.mentioned hσ
    have lasting := hreach.symbolOf keyed' counted'
      (Nat.add_pos_right 0 (List.count_pos_iff.2 hv)) symbol
    obtain ⟨E, surplus⟩ := after
    rw [← surplus.symbolOf, Scene.symbolOf, hf, Option.bind_some, lasting, hσ]

/-- A refusal that is answered comes from the scene, which has no more to it than the refusal left. -/
theorem trySetActive_of_attempt {s : Session K} {place : Nat} {error : EngineError (Relationship K)}
    {active : Bool}
    (refused : (s.perform (.trySetActive place true)).1 = .attempt (some error) active) :
    ∃ c u, s.kept[place]? = some c ∧ s.scene.trySetActive c true = (.error error, u) ∧
      active = u.isActive c ∧ (s.perform (.trySetActive place true)).2 = s.withScene u := by
  simp only [perform, withKept] at refused ⊢
  split at refused
  next => cases refused
  next c hc =>
    split at refused
    next => cases refused
    next u htry =>
      cases refused
      exact ⟨c, u, hc, htry, rfl, rfl⟩

/-- The session after a refused activation of the constraint `r`, whose engine is `e`. -/
def afterRefusal (s : Session K) (e : Engine K) (r : AnchorConstraint K) : Session K :=
  s.withScene { s.scene with engines := s.scene.engines.set r.engine (e.add r.linear).2 }

/-- After a refusal that is harmless to a run, the session is in lock-step throughout the run. The
surplus it left is of unknowns with the same symbols before the run and after it, and that is all that
lock-step needs. -/
theorem lockstep_of_harmless (config : Config K) (steps rest : List (Step K)) {e : Engine K}
    {r : AnchorConstraint K} (he : ((start config).run steps).scene.engines[r.engine]? = some e)
    (h : Harmless e r (((start config).run steps).run rest).scene) :
    let s := (start config).run steps
    let t := s.afterRefusal e r
    (∃ E, Scene.Surplus E s.scene t.scene) ∧ t.answers rest = s.answers rest ∧
      ∃ E, Scene.Surplus E (s.run rest).scene (t.run rest).scene := by
  intro s t
  obtain ⟨numbered, -⟩ := run_evolves steps (start_evolves config).1
  obtain ⟨E, surplus, symbols⟩ := surplus_of_harmless h
  have here : Surplus (surplusAt r.engine E) s t := ⟨rfl, surplus_set he ⟨rfl, surplus⟩⟩
  have fixed : ∀ i v, 0 < surplusAt r.engine E i v →
      ∃ σ, s.scene.symbolOf i v = some σ ∧ (s.run rest).scene.symbolOf i v = some σ := by
    intro i v hv
    rw [surplusAt] at hv
    split at hv
    next hi =>
      obtain ⟨σ, hσ, hσ'⟩ := symbols v hv
      refine ⟨σ, ?_, hi ▸ hσ'⟩
      rw [hi, Scene.symbolOf, he]
      exact hσ
    next => cases hv
  -- The symbols of the surplus, named once for the state before the run and the one after it.
  have : Nonempty Symbol := ⟨⟨0, .dummy⟩⟩
  choose! σ before after using fixed
  have lasting := lasting_of_symbolOf config steps before
  have lasting' := lasting_of_symbolOf config (steps ++ rest) (by rw [run_append]; exact after)
  rw [run_append] at lasting'
  obtain ⟨same, result⟩ := run_surplus rest numbered here lasting lasting'
  exact ⟨⟨_, here.scene⟩, same, _, result.scene⟩

/-- The converse: only a harmless refusal leaves nothing but a surplus of mentions, at once and at the
end of a run. -/
theorem harmless_of_lockstep (config : Config K) (steps rest : List (Step K)) {e : Engine K}
    {r : AnchorConstraint K} (he : ((start config).run steps).scene.engines[r.engine]? = some e)
    {refusal : Refusal} (refused : (e.solver.addConstraint r.linear).1 = .error refusal)
    (hnumbered : Numbered [] (((start config).run steps).afterRefusal e r).scene) :
    let s := (start config).run steps
    let t := s.afterRefusal e r
    (∃ E, Scene.Surplus E s.scene t.scene) →
      (∃ E, Scene.Surplus E (s.run rest).scene (t.run rest).scene) →
      Harmless e r (s.run rest).scene := by
  rintro s t ⟨E, before⟩ after
  have hf : t.scene.engines[r.engine]? = some (e.add r.linear).2 :=
    List.getElem?_set_self (List.getElem?_eq_some_iff.1 he).1
  obtain ⟨f, hf', hreach⟩ := (run_evolves rest hnumbered).2.exists_reaches hf
  obtain ⟨config', root, created⟩ := start_run_reaches config steps he
  obtain ⟨keyed, counted⟩ := created.counted (Engine.create_counted config' root).1
    (Engine.create_counted config' root).2
  exact harmless_of_surplus refused keyed counted ⟨_, (before.engine _ _ _ he hf).solver⟩ hf' hreach
    after

/-- A refused activation leaves the constraint inactive and changes nothing but the solver of its
engine. For every later run, the session is in lock-step with the one in which the activation was not
asked for, at the refusal and at the end of the run, exactly if the refusal is harmless to the run;
and then the run is answered as it is there. -/
theorem refused_activation (config : Config K) (steps : List (Step K)) {place : Nat}
    {error : EngineError (Relationship K)} {active : Bool}
    (refused : (((start config).run steps).perform (.trySetActive place true)).1 =
      .attempt (some error) active) :
    let s := (start config).run steps
    let t := (s.perform (.trySetActive place true)).2
    active = false ∧
    ∃ (c : ConstraintId) (r : AnchorConstraint K) (e : Engine K),
      s.kept[place]? = some c ∧ s.scene.constraints[c]? = some r ∧ r.active = false ∧
      s.scene.engines[r.engine]? = some e ∧
      t = s.withScene
        { s.scene with engines := s.scene.engines.set r.engine (e.add r.linear).2 } ∧
      ∀ rest : List (Step K),
        (Harmless e r (s.run rest).scene → t.answers rest = s.answers rest) ∧
        (Harmless e r (s.run rest).scene ↔
          (∃ E, Scene.Surplus E s.scene t.scene) ∧
            ∃ E, Scene.Surplus E (s.run rest).scene (t.run rest).scene) := by
  intro s t
  obtain ⟨numbered, -⟩ := run_evolves steps (start_evolves config).1
  obtain ⟨c, u, hc, htry, hactive, ht⟩ := trySetActive_of_attempt refused
  obtain ⟨r, e, refusal, hr, hinactive, he, hadd, rfl⟩ := trySetActive_refused htry
  refine ⟨?_, c, r, e, hc, hr, hinactive, he, ht, fun rest => ?_⟩
  · rw [hactive, Scene.isActive, hr]
    exact hinactive
  have numbered' : Numbered [] t.scene := (run_evolves [.trySetActive place true] numbered).1
  rw [show t = s.afterRefusal e r from ht] at numbered' ⊢
  refine ⟨?_, ?_, ?_⟩
  · intro h
    exact (lockstep_of_harmless config steps rest he h).2.1
  · intro h
    obtain ⟨before, -, after⟩ := lockstep_of_harmless config steps rest he h
    exact ⟨before, after⟩
  · rintro ⟨before, after⟩
    exact harmless_of_lockstep config steps rest he hadd numbered' before after

/-- A card on record at its frame, which is read, and a constraint that gives it another width. -/
def widthFixed : List (Step Rat) :=
  [.addView 0 "card" ⟨0, 0, 100, 50⟩,
    .frame 1,
    .makeFixed ⟨1, .width, false⟩ 200]

/-- `refused_activation` where the constraint contradicts a required width, and is tried again. -/
theorem refused_activation_widthFixed :
    let s := (start Config.standard).run widthFixed
    let t := (s.perform (.trySetActive 0 true)).2
    (s.perform (.trySetActive 0 true)).1.cause? = some .unsatisfiable ∧
    t.answers [.frame 1, .trySetActive 0 true, .frames] =
      s.answers [.frame 1, .trySetActive 0 true, .frames] := by
  intro s t
  have cause : (s.perform (.trySetActive 0 true)).1.cause? = some .unsatisfiable := by
    decide +kernel
  obtain ⟨error, active, refused⟩ := Answer.exists_attempt_of_cause cause
  obtain ⟨-, c, r, e, hc, hr, -, he, -, later⟩ :=
    refused_activation .standard widthFixed refused
  have harmless : ((s.kept[0]?.bind fun c => s.scene.constraints[c]?).bind fun r =>
      s.scene.engines[r.engine]?.map fun e => decide
        (Harmless e r (s.run [.frame 1, .trySetActive 0 true, .frames]).scene)) = some true := by
    decide +kernel
  rw [hc, Option.bind_some, hr, Option.bind_some, he, Option.map_some] at harmless
  exact ⟨cause, (later _).1 (of_decide_eq_true (Option.some.inj harmless))⟩

/-- A card on record at its frame, which is read, and a constraint that has its width follow that of
the root. -/
def widthFollowsRoot : List (Step Rat) :=
  [.addView 0 "card" ⟨0, 0, 100, 50⟩,
    .frame 1,
    .make ⟨1, .width, false⟩ .greaterOrEqual ⟨0, .width, false⟩ (-175)]

/-- A refusal after which a later frame is read as it would not be without the request: an unknown of
the refused constraint has entered the tableau. -/
theorem refused_activation_widthFollowsRoot :
    let s := (start Config.standard).run widthFollowsRoot
    let t := (s.perform (.trySetActive 0 true)).2
    (s.perform (.trySetActive 0 true)).1.cause? = some .unsatisfiable ∧
    t.isActive 0 = false ∧
    (s.answers [.setPinned 1 false, .frame 1]).filterMap Answer.width? = [100] ∧
    (t.answers [.setPinned 1 false, .frame 1]).filterMap Answer.width? = [200] := by
  decide +kernel

end Session

end ViewConstraints

import ViewConstraints.Proofs.Scene.Demands
import ViewConstraints.Proofs.Scene.Engines
import ViewConstraints.Proofs.Simplex.Mentions
import ViewConstraints.Proofs.Simplex.Sound

/-!
# The values an engine has learnt

An engine answers for a frame with the values it has learnt from the reports of its solver. Whatever
was asked of the engine, the value learnt for an unknown is the one last reported (`Faithful`), so
that after a report it agrees with the current solution for every unknown that was reported since it
came into use. An unknown that comes into use has the value zero, and zero is not reported: the value
learnt for it is the one of its earlier use until another is reported (`Faithful.agree_valueOf_iff`).
-/

namespace ViewConstraints

open Linear Simplex

namespace Simplex.Solver

variable {K : Type} [Scalar K] {s : Solver K}

/-- How the value learnt for an unknown compares with what was last reported of it stays the same with
the next report, once the values are brought up to date: an unknown that is reported then has the
reported value in both. -/
theorem reported_fetchChanges {P : Option K → Option K → Prop} (hP : ∀ r, P (some r) (some r))
    {values : OrderedMap Variable K} {v : Variable} (h : P (s.reportedOf v) (values.get? v)) :
    P (s.fetchChanges.2.reportedOf v)
      ((s.fetchChanges.1.foldl (fun values c => values.insert c.1 c.2) values).get? v) := by
  have reported (vs : List Variable) : ∀ report : List (Variable × K) × Solver K,
      P (report.2.reportedOf v)
        ((report.1.foldl (fun values c => values.insert c.1 c.2) values).get? v) →
      P ((vs.foldl reportVariable report).2.reportedOf v)
        (((vs.foldl reportVariable report).1.foldl (fun values c => values.insert c.1 c.2) values).get?
          v) := by
    induction vs with
    | nil => exact fun _ h => h
    | cons w vs ih =>
      intro report h
      refine ih _ ?_
      rcases reportVariable_cases report w with ⟨heq, -⟩ | ⟨x, hx, heq⟩
      · rw [heq]
        exact h
      · rw [heq, List.foldl_append, List.foldl_cons, List.foldl_nil, OrderedMap.get?_insert,
          reportedOf, OrderedMap.get?_insert]
        split
        next => exact hP _
        next => exact h
  unfold fetchChanges
  cases s.reportedChanges with
  | true => exact reported _ _ h
  | false => exact reported _ _ h

end Simplex.Solver

namespace Scene

variable {K : Type} [Scalar K]

/-- The solver of an engine is sound and counts the mentions of its held constraints, and the value
learnt for an unknown is the one last reported. -/
structure Engine.Faithful (e : Engine K) : Prop where
  sound : e.solver.Sound
  keyed : e.solver.Keyed
  counted : e.solver.Counted fun _ => 0
  learnt : ∀ v r, e.solver.reportedOf v = some r → e.values.get? v = some r

namespace Engine

/-- A new engine knows nothing, and its solver holds nothing. -/
theorem create_faithful (config : Config K) (root : ViewId) : (create config root).Faithful where
  sound := Solver.sound_empty
  keyed := (create_counted config root).1
  counted := (create_counted config root).2
  learnt _ _ h := nomatch h

variable [LawfulScalar K] {e f : Engine K}

/-- Every request keeps an engine faithful. -/
theorem Faithful.reaches {A B : Constraint K → Prop} (h : e.Faithful) (hreach : e.ReachesBy A B f) :
    f.Faithful := by
  obtain ⟨keyed, counted⟩ := hreach.counted h.keyed h.counted
  suffices f.solver.Sound ∧ ∀ v r, f.solver.reportedOf v = some r → f.values.get? v = some r from
    ⟨this.1, keyed, counted, this.2⟩
  clear keyed counted
  induction hreach with
  | refl => exact ⟨h.sound, h.learnt⟩
  | @add f c _ _ ih =>
    exact ⟨Solver.addConstraint_sound ih.1 c,
      fun v r hr => ih.2 v r (Solver.reportedOf_addConstraint _ c v ▸ hr)⟩
  | @remove f c _ _ _ ih =>
    exact ⟨Solver.removeConstraint_sound ih.1 c,
      fun v r hr => ih.2 v r (Solver.reportedOf_of_removeConstraint hr)⟩
  | refresh _ ih =>
    exact ⟨(Solver.fetchChanges_agree ih.1).1,
      fun v => Solver.reported_fetchChanges (P := fun reported value => ∀ r, reported = some r →
        value = some r) (fun _ _ => id) (ih.2 v)⟩

/-- A refresh brings an engine up to date with its solver. -/
theorem Faithful.refresh (h : e.Faithful) : e.refresh.Faithful :=
  have reports : e.Reaches e.refresh := .refresh (.refl e)
  h.reaches reports

/-- After a report, the value learnt for an unknown in use agrees with the current solution exactly if
the unknown was reported since it came into use, or the value is zero. -/
theorem Faithful.agree_valueOf_iff (h : e.Faithful) {v : Variable} {σ : Symbol}
    (hσ : e.solver.symbolOf v = some σ) : Agree (e.refresh.value v) (e.solver.valueOf σ) ↔
      (e.refresh.solver.reportedOf v).isSome = true ∨ Agree (e.refresh.value v) 0.0 := by
  obtain ⟨-, -, values, agree⟩ := Solver.fetchChanges_agree h.sound
  have hσ' : e.refresh.solver.symbolOf v = some σ := (Solver.symbolOf_fetchChanges e.solver v).trans hσ
  obtain ⟨x, hx, rfl⟩ := Option.map_eq_some_iff.1 hσ'
  have current : Agree (x.reported.getD 0.0) (e.solver.valueOf x.symbol) :=
    values x.symbol ▸ agree v x hx
  have reported : e.refresh.solver.reportedOf v = x.reported := by
    rw [Solver.reportedOf, hx, Option.bind_some]
  rw [reported]
  cases hr : x.reported with
  | some r =>
    have learnt : e.refresh.value v = r := by
      rw [value, h.refresh.learnt v r (reported.trans hr), Option.getD_some]
    rw [hr, Option.getD_some] at current
    exact iff_of_true (learnt ▸ current) (.inl rfl)
  | none =>
    rw [hr, Option.getD_none] at current
    refine ⟨fun ha => .inr (ha.trans current.symm), ?_⟩
    intro ha
    exact (ha.resolve_left (by simp)).trans current

/-- An unknown of a held constraint is in use, so this can be told of its value. -/
theorem Faithful.value_agree_iff (h : e.Faithful) {c : Constraint K} (hc : c ∈ e.solver.constraints)
    {v : Variable} (hv : v ∈ c.mentioned) :
    ∃ σ, e.solver.symbolOf v = some σ ∧
      (Agree (e.refresh.value v) (e.solver.valueOf σ) ↔
        (e.refresh.solver.reportedOf v).isSome = true ∨ Agree (e.refresh.value v) 0.0) := by
  obtain ⟨σ, hσ⟩ := h.counted.exists_symbolOf hc hv
  exact ⟨σ, hσ, h.agree_valueOf_iff hσ⟩

end Engine

/-- The frame of a view is made of the values its engine has learnt after a report. -/
theorem frame_component {s : Scene K} {view : ViewId} {v : View K} {e : Engine K}
    (hv : s.views[view]? = some v) (he : s.engines[v.engine]? = some e) (q : Quantity) :
    (s.frame view).1.component q = e.refresh.value ⟨view, q⟩ := by
  rw [frame, hv, Option.bind_some, he, Option.map_some]
  cases q <;> rfl

end Scene

end ViewConstraints

import ViewConstraints.Proofs.Simplex.Books

/-!
# What requests to a solver do not heed

Beside the tableau, an addition and a removal only look at the constraints held and at the unknowns
that they mention. Two solvers that the tableau cannot tell apart and that hold the same constraints
(`Unheeded`) answer them alike, and are still so related afterwards, if counting mentions keeps them
related (`Unheeded.addConstraint`, `Unheeded.removeConstraint`).
-/

namespace ViewConstraints.Simplex.Solver

open Linear

section

variable {K : Type}

/-- A relation that the tableau does not see, between solvers that hold the same constraints. -/
structure Unheeded (R : Solver K → Solver K → Prop) : Prop extends Unseen R where
  holding : ∀ {s t}, R s t → t.held = s.held
  taken : ∀ {s t}, R s t → ∀ held, R { s with held } { t with held }

/-- A relation that lasts when both solvers count one more mention of an unknown, for which they have
the same symbol. -/
def Mentionable (R : Solver K → Solver K → Prop) : Prop :=
  ∀ {s t}, R s t → ∀ v, Alike R (s.mention v) (t.mention v)

end

variable {K : Type} [Scalar K] {R : Solver K → Solver K → Prop} {s t : Solver K}

/-! ## The row of a constraint -/

namespace Unseen

/-- A term is written into the same row for both solvers. -/
theorem addTerm (h : Unseen R) (mention : Mentionable R) (hst : R s t) (row : Row K)
    (term : Term K) : Alike R (addTerm (row, s) term) (addTerm (row, t) term) := by
  unfold Solver.addTerm
  split
  · exact .intro _ hst
  · obtain ⟨symbol, u, w, hu, hw, mentioned⟩ := mention hst term.unknown
    rw [hu, hw]
    dsimp only
    rw [(h.same mentioned).rows]
    cases u.rows.get? symbol <;> exact .intro _ mentioned

/-- So are all terms of an expression. -/
theorem foldl_addTerm (h : Unseen R) (mention : Mentionable R) (terms : List (Term K)) (row : Row K)
    {s t : Solver K} (hst : R s t) :
    Alike R (terms.foldl Solver.addTerm (row, s)) (terms.foldl Solver.addTerm (row, t)) := by
  induction terms generalizing s t row with
  | nil => exact .intro row hst
  | cons term terms ih =>
    obtain ⟨row', u, w, hu, hw, mentioned⟩ := h.addTerm mention hst row term
    rw [List.foldl_cons, List.foldl_cons, hu, hw]
    exact ih row' mentioned

/-- The row of an inequality has the same symbols for both solvers, since these are numbered alike. -/
theorem addInequality (h : Unseen R) (hst : R s t) (row : Row K) (slackSign : K)
    (priority : Priority) : ∃ row' tag u w, s.addInequality row slackSign priority = (row', tag, u) ∧
      t.addInequality row slackSign priority = (row', tag, w) ∧ R u w := by
  obtain ⟨rows, objective, artificial, next⟩ := h.same hst
  unfold Solver.addInequality Solver.fresh
  rw [rows, objective, artificial, next]
  cases priority <;> exact ⟨_, _, _, _, rfl, rfl, h.written hst _ _ _ _⟩

/-- So has the row of an equation. -/
theorem addEquation (h : Unseen R) (hst : R s t) (row : Row K) (priority : Priority) :
    ∃ row' tag u w, s.addEquation row priority = (row', tag, u) ∧
      t.addEquation row priority = (row', tag, w) ∧ R u w := by
  obtain ⟨rows, objective, artificial, next⟩ := h.same hst
  unfold Solver.addEquation Solver.fresh
  rw [rows, objective, artificial, next]
  cases priority <;> exact ⟨_, _, _, _, rfl, rfl, h.written hst _ _ _ _⟩

/-- A constraint has the same row in both solvers, with the same symbols. -/
theorem rowOf (h : Unseen R) (mention : Mentionable R) (hst : R s t) (c : Constraint K) :
    ∃ row tag u w, s.rowOf c = (row, tag, u) ∧ t.rowOf c = (row, tag, w) ∧ R u w := by
  obtain ⟨row, u, w, hu, hw, mentioned⟩ :=
    h.foldl_addTerm mention c.expression.terms ⟨c.expression.constant, ∅⟩ hst
  unfold Solver.rowOf
  rw [hu, hw]
  dsimp only
  cases c.relation with
  | lessOrEqual =>
    obtain ⟨row', tag, u, w, hu, hw, made⟩ := h.addInequality mentioned row 1.0 c.priority
    exact ⟨_, tag, u, w, by rw [hu], by rw [hw], made⟩
  | greaterOrEqual =>
    obtain ⟨row', tag, u, w, hu, hw, made⟩ := h.addInequality mentioned row (-1.0) c.priority
    exact ⟨_, tag, u, w, by rw [hu], by rw [hw], made⟩
  | equal =>
    obtain ⟨row', tag, u, w, hu, hw, made⟩ := h.addEquation mentioned row c.priority
    exact ⟨_, tag, u, w, by rw [hu], by rw [hw], made⟩

end Unseen

/-! ## Additions and removals -/

namespace Unheeded

/-- An addition is answered alike by both solvers and leaves them related. -/
theorem addConstraint (h : Unheeded R) (mention : Mentionable R) (hst : R s t) (c : Constraint K) :
    Alike R (s.addConstraint c) (t.addConstraint c) := by
  rw [Solver.addConstraint, Solver.addConstraint, holds, holds, h.holding hst]
  split
  · exact .intro _ hst
  · obtain ⟨row, tag, u, w, hu, hw, ready⟩ := h.rowOf mention hst c
    rw [hu, hw]
    dsimp only
    obtain ⟨answer, u, w, hu, hw, added⟩ := h.addRow ready row tag
    rw [hu, hw]
    cases answer with
    | error refusal => exact .intro _ added
    | ok _ =>
      dsimp only
      obtain ⟨answer, u', w', hu, hw, optimal⟩ :=
        h.optimise (h.taken added (u.held.insert c.id ⟨c, tag⟩)) false
      rw [h.holding added, hu, hw]
      cases answer <;> exact .intro _ optimal

/-- A removal is answered alike by both solvers and leaves them related, but for the mentions that it
takes back at the end. -/
theorem removeConstraint (h : Unheeded R) (hst : R s t) (c : Constraint K) :
    Alike R (s.removeConstraint c) (t.removeConstraint c) ∨
      ∃ u w, R u w ∧ s.removeConstraint c = (.ok (), u.unmentionAll c.mentioned) ∧
        t.removeConstraint c = (.ok (), w.unmentionAll c.mentioned) := by
  rw [Solver.removeConstraint, Solver.removeConstraint, h.holding hst]
  cases s.held.get? c.id with
  | none => exact .inl (.intro _ hst)
  | some held =>
    have costless := h.removeCost (h.taken hst (s.held.erase c.id)) held.tag c.priority
    obtain ⟨answer, u, w, hu, hw, dropped⟩ := h.dropMarker costless held.tag.marker
    dsimp only
    rw [hu, hw]
    cases answer with
    | error failure => exact .inl (.intro _ dropped)
    | ok _ =>
      obtain ⟨answer, u, w, hu, hw, optimal⟩ := h.optimise dropped false
      dsimp only
      rw [hu, hw]
      cases answer with
      | error failure => exact .inl (.intro _ optimal)
      | ok _ =>
        refine .inr ⟨u, w, optimal, ?_, ?_⟩ <;>
          rw [unmentionAll, Constraint.mentioned, List.foldl_map]

end Unheeded

end ViewConstraints.Simplex.Solver

import ViewConstraints.Proofs.Scalar.Laws
import ViewConstraints.Proofs.Simplex.Sound

/-!
# Soft constraints are never contradicted

A constraint that is not required brings two symbols of its own into its row, one with the
coefficient one and one with minus one (`Opposed`). Whatever else stands in the row, and whichever
sign the row is given, it can then be solved for an unknown or for the symbol with minus one, so it
is never tried through an artificial symbol and never refused as unsatisfiable
(`addConstraint_soft`).
-/

namespace ViewConstraints.Simplex

open Linear

variable {K : Type} [Scalar K]

/-! ## Coefficients of new symbols -/

namespace Row

/-- A cell that is new to a row holds what was put in, unless that is nearly zero. -/
theorem get?_addCell_self {r : Row K} {s : Symbol} {c : K} (hs : ¬ r.Has s)
    (hc : isNearZero c = false) : (r.addCell s c).cells.get? s = some c := by
  have hnone : r.cells.get? s = none := Classical.not_not.1 hs
  rw [addCell, hnone]
  simp only [hc, Bool.false_eq_true, if_false]
  rw [OrderedMap.get?_insert, if_pos rfl]

theorem get?_addCell_ne {r : Row K} {s σ : Symbol} {c : K} (h : σ ≠ s) :
    (r.addCell s c).cells.get? σ = r.cells.get? σ := by
  rw [addCell]
  split
  · split
    · rfl
    · rw [OrderedMap.get?_insert, if_neg h]
  · dsimp only
    split
    · rw [OrderedMap.get?_erase, if_neg h]
    · rw [OrderedMap.get?_insert, if_neg h]

theorem coefficient_of_get? {r : Row K} {s : Symbol} {c : K} (h : r.cells.get? s = some c) :
    r.coefficient s = c := by
  rw [coefficient, h, Option.getD_some]

end Row

namespace Solver

/-! ## Two symbols with opposite signs -/

/-- The two symbols of a constraint may enter the basis and stand in its row, one with the
coefficient one and the other with minus one. -/
structure Opposed (row : Row K) (marker other : Symbol) : Prop where
  markerKind : marker.isPivotable = true
  otherKind : other.isPivotable = true
  cells : row.cells.get? marker = some 1.0 ∧ row.cells.get? other = some (-1.0) ∨
    row.cells.get? marker = some (-1.0) ∧ row.cells.get? other = some 1.0

/-- A row that can be solved for a symbol is added. -/
theorem addRow_of_subject?_isSome {s : Solver K} {row : Row K} {tag : Tag}
    (h : (subject? row tag).isSome = true) :
    (s.addRow row tag).1 = .ok () := by
  obtain ⟨symbol, hs⟩ := Option.isSome_iff_exists.1 h
  simp [addRow, hs]

variable [UnitScalar K] {s : Solver K} {row : Row K}

open UnitScalar

/-- A marker and the error beside it have opposite coefficients in the negated row too. -/
theorem Opposed.negate {marker other : Symbol} (h : Opposed row marker other) :
    Opposed row.negate marker other := by
  refine ⟨h.markerKind, h.otherKind, ?_⟩
  simp only [Row.negate, OrderedMap.get?_map]
  rcases h.cells with ⟨hm, ho⟩ | ⟨hm, ho⟩
  · rw [hm, ho, Option.map_some, Option.map_some, neg_neg_one]
    exact .inr ⟨rfl, rfl⟩
  · rw [hm, ho, Option.map_some, Option.map_some, neg_neg_one]
    exact .inl ⟨rfl, rfl⟩

/-- A row with opposed symbols can be solved for one of its symbols. -/
theorem Opposed.subject?_isSome {marker other : Symbol} (h : Opposed row marker other) :
    (subject? row ⟨marker, some other⟩).isSome = true := by
  have below : (-1.0 : K) < 0.0 := neg_one_lt_zero
  unfold subject?
  split
  · rfl
  · dsimp only
    rcases h.cells with ⟨-, ho⟩ | ⟨hm, -⟩
    · split
      · rfl
      · simp [Option.filter, h.otherKind, Row.coefficient_of_get? ho, below]
    · rw [if_pos (by simp [h.markerKind, Row.coefficient_of_get? hm, below])]
      rfl

/-- Two new symbols in a row, with opposite signs. -/
theorem opposed_fresh (hrow : ∀ σ, row.Has σ → σ.id < s.nextSymbol) {kind kind' : SymbolKind}
    (hkind : kind = .slack ∨ kind = .error) (hkind' : kind' = .slack ∨ kind' = .error) {c c' : K}
    (signs : c = 1.0 ∧ c' = -1.0 ∨ c = -1.0 ∧ c' = 1.0) :
    Opposed ((row.addCell (s.fresh kind).1 c).addCell ((s.fresh kind).2.fresh kind').1 c')
      (s.fresh kind).1 ((s.fresh kind).2.fresh kind').1 := by
  have unused : ¬ row.Has (s.fresh kind).1 := fun h => Nat.lt_irrefl _ (hrow _ h)
  have apart : (s.fresh kind).1 ≠ ((s.fresh kind).2.fresh kind').1 := by
    intro h
    exact absurd (congrArg Symbol.id h) (Nat.ne_of_lt (Nat.lt_succ_self s.nextSymbol))
  have unused' : ¬ (row.addCell (s.fresh kind).1 c).Has ((s.fresh kind).2.fresh kind').1 := by
    intro h
    rcases h.of_addCell with h | h
    · exact apart h.symm
    · exact absurd (hrow _ h) (Nat.not_lt.2 (Nat.le_succ s.nextSymbol))
  have far : isNearZero c = false ∧ isNearZero c' = false := by
    rcases signs with ⟨h, h'⟩ | ⟨h, h'⟩
    · exact ⟨h ▸ one_not_near_zero, h' ▸ neg_one_not_near_zero⟩
    · exact ⟨h ▸ neg_one_not_near_zero, h' ▸ one_not_near_zero⟩
  refine ⟨?_, ?_, ?_⟩
  · rcases hkind with rfl | rfl <;> rfl
  · rcases hkind' with rfl | rfl <;> rfl
  · rw [Row.get?_addCell_ne apart, Row.get?_addCell_self unused far.1,
      Row.get?_addCell_self unused' far.2]
    simpa using signs

/-! ## Additions -/

/-- The row of a soft constraint holds its two symbols with opposite signs: the slack and the error of
an inequality, or the two errors of an equation. -/
theorem rowOf_opposed (h : Sound s) {c : Constraint K} (soft : c.priority ≠ .required) :
    ∃ marker other, (s.rowOf c).2.1 = ⟨marker, some other⟩ ∧
      Opposed (s.rowOf c).1 marker other := by
  have terms := foldl_addTerm_sound c.expression.terms (⟨c.expression.constant, ∅⟩, s) h
    fun σ hσ => absurd hσ (Row.not_has_empty _ σ)
  unfold rowOf
  generalize c.expression.terms.foldl addTerm (⟨c.expression.constant, ∅⟩, s) = acc at terms ⊢
  obtain ⟨row, u⟩ := acc
  have made : ∀ σ, row.Has σ → σ.id < u.nextSymbol := fun σ hσ => (terms.2 σ hσ).made
  -- Whichever sign the row is given, the two symbols stay opposed.
  have signed : ∀ r : Row K × Tag × Solver K,
      (∃ marker other, r.2.1 = ⟨marker, some other⟩ ∧ Opposed r.1 marker other) →
      ∃ marker other, r.2.1 = ⟨marker, some other⟩ ∧
        Opposed (if r.1.constant < 0.0 then r.1.negate else r.1) marker other := by
    rintro r ⟨marker, other, htag, hr⟩
    refine ⟨marker, other, htag, ?_⟩
    split
    · exact hr.negate
    · exact hr
  have slack : SymbolKind.slack = .slack ∨ SymbolKind.slack = .error := .inl rfl
  have error : SymbolKind.error = .slack ∨ SymbolKind.error = .error := .inr rfl
  have inequality (slackSign : K)
      (signs : slackSign = 1.0 ∧ -slackSign = -1.0 ∨ slackSign = -1.0 ∧ -slackSign = 1.0) :
      ∃ marker other, (u.addInequality row slackSign c.priority).2.1 = ⟨marker, some other⟩ ∧
        Opposed (u.addInequality row slackSign c.priority).1 marker other := by
    cases hp : c.priority with
    | required => exact absurd hp soft
    | strong | medium | weak => exact ⟨_, _, rfl, opposed_fresh made slack error signs⟩
  have equation : ∃ marker other, (u.addEquation row c.priority).2.1 = ⟨marker, some other⟩ ∧
      Opposed (u.addEquation row c.priority).1 marker other := by
    cases hp : c.priority with
    | required => exact absurd hp soft
    | strong | medium | weak => exact ⟨_, _, rfl, opposed_fresh made error error (.inr ⟨rfl, rfl⟩)⟩
  cases c.relation with
  | lessOrEqual => exact signed _ (inequality 1.0 (.inl ⟨rfl, rfl⟩))
  | greaterOrEqual => exact signed _ (inequality (-1.0) (.inr ⟨rfl, neg_neg_one⟩))
  | equal => exact signed _ equation

/-- A soft constraint is never refused as unsatisfiable, whatever the solver holds. -/
theorem addConstraint_soft (h : Sound s) {c : Constraint K} (soft : c.priority ≠ .required) :
    (s.addConstraint c).1 ≠ .error .unsatisfiable := by
  unfold addConstraint
  split
  · exact nofun
  · obtain ⟨marker, other, htag, opposed⟩ := rowOf_opposed h soft
    generalize s.rowOf c = r at htag opposed ⊢
    obtain ⟨row, tag, t⟩ := r
    dsimp only at htag opposed ⊢
    subst htag
    have added := addRow_of_subject?_isSome (s := t) opposed.subject?_isSome
    generalize t.addRow row _ = a at added ⊢
    obtain ⟨answer, u⟩ := a
    dsimp only at added
    subst added
    dsimp only
    generalize Solver.optimise (K := K) _ false = o
    obtain ⟨failure | _, v⟩ := o <;> exact nofun

end Solver

end ViewConstraints.Simplex

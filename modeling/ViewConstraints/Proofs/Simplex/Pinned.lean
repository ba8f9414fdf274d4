import ViewConstraints.Proofs.Simplex.Soft
import ViewConstraints.Proofs.Simplex.Tied

/-!
# Unknowns that a held constraint gives a number

The required equation that an unknown is a number, added while the solver knows nothing of the
unknown, ties the unknown to that number whatever else the solver holds (`addConstraint_pins`). From
then on, as long as the equation is not asked to be removed, no addition, removal or report changes
this (`Pinned.addConstraint`, `Pinned.removeConstraint`, `Pinned.fetchChanges`).
-/

namespace ViewConstraints.Simplex.Solver

open Linear

variable {K : Type} [Scalar K] {s : Solver K} {n : Nat} {v : Variable} {σ marker : Symbol} {k x : K}

/-- The unknown `v` is tied to the number `k` by the constraint with the number `n`, which alone has
the marker of the row. -/
structure Pinned (s : Solver K) (n : Nat) (v : Variable) (σ marker : Symbol) (k : K) : Prop where
  symbol : s.symbolOf v = some σ
  tied : Tied σ marker k s
  held : ∃ held, s.held.get? n = some held ∧ held.tag.marker = marker ∧
    v ∈ held.constraint.mentioned
  sole : ∀ other held, s.held.get? other = some held → held.tag.marker = marker → other = n

/-! ## The row of an equation for a new unknown -/

/-- The row of the equation that the unknown with the symbol `σ` is the number `x`, in either sign. -/
structure Equates (σ marker : Symbol) (x : K) (row : Row K) : Prop where
  symbols : ∀ τ, row.Has τ → τ = σ ∨ τ = marker
  signed : row.constant = 0.0 - x ∧ row.cells.get? σ = some 1.0 ∨
    row.constant = -(0.0 - x) ∧ row.cells.get? σ = some (-1.0)

/-- The unknown that an equation is about stands in its row. -/
theorem Equates.has {row : Row K} (h : Equates σ marker x row) : row.Has σ := by
  rcases h.signed with ⟨-, hcell⟩ | ⟨-, hcell⟩ <;> rw [Row.Has, hcell] <;> exact Option.some_ne_none _

/-- A row with an unknown is solved for it. -/
theorem Equates.subject? {row : Row K} {tag : Tag} (h : Equates σ marker x row)
    (hσ : σ.isExternal = true) (hm : marker.isExternal = false) :
    subject? row tag = some σ := by
  obtain ⟨c, hc⟩ := Option.ne_none_iff_exists'.1 h.has
  rw [Solver.subject?]
  split
  next τ _ he =>
    have external : τ.isExternal = true :=
      List.find?_some (p := fun e : Symbol × K => e.1.isExternal) he
    rcases h.symbols τ (Row.has_of_mem_entries (List.mem_of_find?_eq_some he)) with rfl | rfl
    · rfl
    · rw [hm] at external
      cases external
  next hnone =>
    exact absurd hσ (List.find?_eq_none.1 hnone _ (OrderedMap.mem_entries_of_get? hc))

/-! ## The held set -/

/-- No constraint is taken in before its row was added. -/
theorem addRow_held (s : Solver K) (c : Constraint K) :
    ((s.rowOf c).2.2.addRow (s.rowOf c).1 (s.rowOf c).2.1).2.held = s.held :=
  (addRow_books _ _ _).held.trans (rowOf_books s c).held_mentionAll

/-- The solver after an addition whose row was accepted. -/
theorem addConstraint_of_addRow {c : Constraint K} (hc : s.holds c.id = false) {u : Solver K}
    (h : (s.rowOf c).2.2.addRow (s.rowOf c).1 (s.rowOf c).2.1 = (.ok (), u)) :
    (s.addConstraint c).2 =
      (Solver.optimise { u with held := u.held.insert c.id ⟨c, (s.rowOf c).2.1⟩ } false).2 := by
  rw [addConstraint, if_neg (Bool.eq_false_iff.1 hc)]
  dsimp only
  rw [h]
  dsimp only
  generalize Solver.optimise (K := K) _ false = o
  obtain ⟨failure | _, w⟩ := o <;> rfl

/-- A removal takes out the constraint, or nothing. -/
theorem removeConstraint_held (s : Solver K) (c : Constraint K) :
    (s.removeConstraint c).2.held = s.held ∨ (s.removeConstraint c).2.held = s.held.erase c.id := by
  have h := removeConstraint_removed s c
  generalize s.removeConstraint c = r at h ⊢
  obtain ⟨answer, t⟩ := r
  cases h with
  | unknown => exact .inl rfl
  | removed _ _ ht => exact .inr ((unmentionAll_held _ _).trans ht.held)
  | failed _ _ _ ht => exact .inr ht.held

/-- An addition takes in the constraint with the symbols of its row, or nothing. -/
theorem addConstraint_held (s : Solver K) (c : Constraint K) :
    (s.addConstraint c).2.held = s.held ∨ s.holds c.id = false ∧
      (s.addConstraint c).2.held = s.held.insert c.id ⟨c, (s.rowOf c).2.1⟩ := by
  cases hc : s.holds c.id with
  | true => exact .inl (congrArg (fun a => a.2.held) (addConstraint_of_holds hc))
  | false =>
    have added := addRow_held s c
    cases ha : (s.rowOf c).2.2.addRow (s.rowOf c).1 (s.rowOf c).2.1 with
    | mk answer u =>
      rw [ha] at added
      cases answer with
      | error refusal =>
        refine .inl ?_
        rw [addConstraint, if_neg (Bool.eq_false_iff.1 hc)]
        dsimp only
        rw [ha]
        exact added
      | ok =>
        refine .inr ⟨rfl, ?_⟩
        rw [addConstraint_of_addRow hc ha, (optimise_books _ false).held]
        exact congrArg (OrderedMap.insert · c.id _) added

/-- A report changes nothing for a pinned unknown. -/
theorem Pinned.fetchChanges (h : Pinned s n v σ marker k) : Pinned s.fetchChanges.2 n v σ marker k := by
  refine ⟨(symbolOf_fetchChanges s v).trans h.symbol, h.tied.fetchChanges, ?_, ?_⟩
  · rw [fetchChanges_held]
    exact h.held
  · rw [fetchChanges_held]
    exact h.sole

variable [UnitScalar K]

open UnitScalar

/-- Solved for the unknown, either sign of the equation gives the number. -/
theorem Equates.solveFor {row : Row K} (h : Equates σ marker x row) :
    Agree (row.solveFor σ).constant x ∧ ∀ τ, (row.solveFor σ).Has τ → τ = marker := by
  refine ⟨?_, fun τ hτ => (h.symbols τ hτ.of_solveFor.2).resolve_left hτ.of_solveFor.1⟩
  rcases h.signed with ⟨hconstant, hcell⟩ | ⟨hconstant, hcell⟩
  · have solved : (row.solveFor σ).constant = (0.0 - x) * (-1.0 / 1.0) := by
      rw [Row.solveFor, hcell, ← hconstant]
      rfl
    rw [solved, neg_one_div_one]
    exact (UnitScalar.mul_neg_one _).trans (neg_zero_sub x)
  · have solved : (row.solveFor σ).constant = -(0.0 - x) * (-1.0 / -1.0) := by
      rw [Row.solveFor, hcell, ← hconstant]
      rfl
    rw [solved, neg_one_div_neg_one]
    exact (UnitScalar.mul_one _).trans (neg_zero_sub x)

/-- The constraint that an unknown equals a number. -/
abbrev equation (n : Nat) (v : Variable) (x : K) : Constraint K :=
  .equalling n (.ofVariable v) x .required

/-- An equation about one unknown mentions it once. -/
theorem equation_mentioned (n : Nat) (v : Variable) (x : K) :
    (equation n v x).mentioned = [v] := by
  have far : isNearZero (1.0 : K) = false := one_not_near_zero
  simp [Constraint.mentioned, Constraint.equalling, Expression.ofVariable, Expression.subConstant, far]

/-- An unknown that comes into use brings its symbol into the row. -/
theorem addTerm_new (h : Sound s) (hv : s.symbolOf v = none) (row : Row K) :
    addTerm (row, s) ⟨v, 1.0⟩ = (row.addCell ⟨s.nextSymbol, .external⟩ 1.0, (s.mention v).2) := by
  have far : isNearZero (1.0 : K) = false := one_not_near_zero
  have symbol : (s.mention v).1 = ⟨s.nextSymbol, .external⟩ := by
    rw [mention, Option.map_eq_none_iff.1 hv]
    rfl
  have free : (s.mention v).2.rows.get? ⟨s.nextSymbol, .external⟩ = none := by
    rw [mention_rows]
    exact h.coherent.notBasic (Nat.le_refl _)
  simp only [addTerm, far, Bool.false_eq_true, if_false, symbol, free]

/-- The equation for a new unknown: its row equates the unknown with the number, up to a new marker.
The row is negated if its constant is below zero, which turns the signs of both. -/
theorem rowOf_equation (h : Sound s) (hv : s.symbolOf v = none) (n : Nat) (x : K) :
    (s.rowOf (equation n v x)).2.1.marker = ⟨s.nextSymbol + 1, .dummy⟩ ∧
    Equates ⟨s.nextSymbol, .external⟩ (s.rowOf (equation n v x)).2.1.marker x
      (s.rowOf (equation n v x)).1 := by
  have far : isNearZero (1.0 : K) = false := one_not_near_zero
  have next : (s.mention v).2.nextSymbol = s.nextSymbol + 1 := by
    rw [mention_nextSymbol, if_pos hv]
  let row : Row K := (Row.addCell ⟨0.0 - x, ∅⟩ ⟨s.nextSymbol, .external⟩ 1.0).addCell
    ⟨s.nextSymbol + 1, .dummy⟩ 1.0
  have made : s.rowOf (equation n v x) =
      (if row.constant < 0.0 then row.negate else row, ⟨⟨s.nextSymbol + 1, .dummy⟩, none⟩,
        ((s.mention v).2.fresh .dummy).2) := by
    have terms : (equation n v x).expression.terms.foldl addTerm
        (⟨(equation n v x).expression.constant, ∅⟩, s) =
          (Row.addCell ⟨0.0 - x, ∅⟩ ⟨s.nextSymbol, .external⟩ 1.0, (s.mention v).2) :=
      addTerm_new h hv _
    rw [rowOf, terms]
    simp only [Constraint.equalling, addEquation, fresh, next, row]
  have symbols : ∀ τ, row.Has τ → τ = ⟨s.nextSymbol, .external⟩ ∨ τ = ⟨s.nextSymbol + 1, .dummy⟩ := by
    intro τ hτ
    rcases hτ.of_addCell with rfl | hτ
    · exact .inr rfl
    · exact .inl (hτ.of_addCell.resolve_right (Row.not_has_empty _ τ))
  have constant : row.constant = 0.0 - x :=
    (Row.addCell_constant ..).trans (Row.addCell_constant ..)
  have cell : row.cells.get? ⟨s.nextSymbol, .external⟩ = some 1.0 := by
    rw [Row.get?_addCell_ne (by simp), Row.get?_addCell_self (Row.not_has_empty _ _) far]
  refine ⟨by rw [made], ?_⟩
  rw [made]
  dsimp only
  split
  · refine ⟨fun τ hτ => symbols τ (Row.has_negate.1 hτ), .inr ⟨?_, ?_⟩⟩
    · rw [← constant]
      rfl
    · rw [Row.negate, OrderedMap.get?_map, cell]
      rfl
  · exact ⟨symbols, .inl ⟨constant, cell⟩⟩

/-- The row of such an equation is accepted at once and ties the unknown to the number. -/
theorem addRow_equates {t : Solver K} {row : Row K} {tag : Tag} (ready : Ready row tag t)
    (h : Equates σ tag.marker x row) (hσ : σ.isExternal = true) (hm : tag.marker.isDummy = true) :
    ∃ k u, Agree k x ∧ t.addRow row tag = (.ok (), u) ∧ Tied σ tag.marker k u := by
  obtain ⟨agree, marked⟩ := h.solveFor
  refine ⟨_, _, agree, ?_, Tied.of_install hσ hm ready.marker.made (ready.row σ h.has).notBasic marked⟩
  simp [addRow, h.subject? hσ ready.markerKind]

/-- What is left to say of a solver in which the unknown is tied: it holds the equation, under a
marker that is new. -/
theorem Pinned.of_tied (h : Sound s) (hv : s.symbolOf v = none) {tag : Tag} {w : Solver K}
    (tied : Tied ⟨s.nextSymbol, .external⟩ tag.marker k w) (made : s.nextSymbol ≤ tag.marker.id)
    (held : w.held = s.held.insert n ⟨equation n v x, tag⟩)
    (tracked : w.tracked = (s.mentionAll (equation n v x).mentioned).tracked) :
    Pinned w n v ⟨s.nextSymbol, .external⟩ tag.marker k := by
  rw [equation_mentioned] at tracked
  refine ⟨?_, tied, ⟨⟨equation n v x, tag⟩, ?_, rfl, ?_⟩, ?_⟩
  · have symbol := symbolOf_mention s v v
    rw [if_pos rfl, hv] at symbol
    rw [symbolOf, tracked]
    exact symbol
  · rw [held, OrderedMap.get?_insert, if_pos rfl]
  · rw [equation_mentioned]
    exact .head _
  · intro other known hknown hmarker
    rw [held, OrderedMap.get?_insert] at hknown
    split at hknown
    next heq => exact heq
    next =>
      have older := (h.tagged other known hknown).2.1
      rw [hmarker] at older
      exact absurd older (Nat.not_lt.2 made)

/-- The required equation that a new unknown is a number ties the unknown to the number, whatever is
answered and whatever else the solver holds. -/
theorem addConstraint_pins (h : Sound s) (hv : s.symbolOf v = none) (hn : s.holds n = false) (x : K) :
    ∃ σ marker k, Agree k x ∧ Pinned (s.addConstraint (equation n v x)).2 n v σ marker k := by
  obtain ⟨marker, equates⟩ := rowOf_equation h hv n x
  have ready := rowOf_ready h (equation n v x)
  have made : s.nextSymbol ≤ (s.rowOf (equation n v x)).2.1.marker.id := marker ▸ Nat.le_succ _
  have dummy : (s.rowOf (equation n v x)).2.1.marker.isDummy = true := marker ▸ rfl
  obtain ⟨k, u, agree, added, tied⟩ := addRow_equates ready equates rfl dummy
  have tried : ¬ RefusedOutright (s.rowOf (equation n v x)).1 (s.rowOf (equation n v x)).2.1 := by
    intro outright
    rw [addRow_of_refusedOutright _ _ _ outright] at added
    cases added
  have coherent := (addRow_turns ready.sound.coherent ready.row ready.marker ready.other tried).coherent
    ready.sound.coherent
  have unheld := addRow_held s (equation n v x)
  rw [added] at coherent unheld
  let entry : Held K := ⟨equation n v x, (s.rowOf (equation n v x)).2.1⟩
  have taken : Tied _ _ k { u with held := u.held.insert n entry } := tied.of_rows rfl (Nat.le_refl _)
  have best := taken.optimise (coherent.same ⟨rfl, rfl, rfl, rfl⟩) false
  have after := addConstraint_of_addRow (c := equation n v x) hn added
  refine ⟨_, _, k, agree, .of_tied h hv (after ▸ best) made ?_ (addConstraint_tracked hn)⟩
  rw [after, (optimise_books _ false).held]
  exact congrArg (OrderedMap.insert · n _) unheld

/-! ## Requests -/

/-- A pinned unknown is still pinned after an addition, whether or not it is refused. A refused one
may leave rows behind, but none of them moves an unknown that is tied. -/
theorem Pinned.addConstraint (h : Pinned s n v σ marker k) (hs : Sound s) (c : Constraint K) :
    Pinned (s.addConstraint c).2 n v σ marker k := by
  obtain ⟨mine, hmine, hmarker, hv⟩ := h.held
  have tied := h.tied.addConstraint hs c
  have symbol := symbolOf_addConstraint h.symbol c
  rcases addConstraint_held s c with held | ⟨hc, held⟩
  · exact ⟨symbol, tied, ⟨mine, held ▸ hmine, hmarker, hv⟩, held ▸ h.sole⟩
  · have other : n ≠ c.id := by
      rintro rfl
      rw [get?_of_holds_eq_false hc] at hmine
      cases hmine
    refine ⟨symbol, tied, ⟨mine, ?_, hmarker, hv⟩, ?_⟩
    · rw [held, OrderedMap.get?_insert, if_neg other]
      exact hmine
    · intro id known hknown hsame
      rw [held, OrderedMap.get?_insert] at hknown
      split at hknown
      next =>
        cases hknown
        have younger : marker.id < (s.rowOf c).2.1.marker.id := by
          rw [(rowOf_symbols s c).1]
          exact Nat.lt_of_lt_of_le h.tied.made (mentionAll_later c.mentioned s).next
        exact absurd younger (hsame ▸ Nat.lt_irrefl _)
      next => exact h.sole id known hknown hsame

/-- A removal of any other constraint: the marker of that one is another, and the unknown stays in
use for the equation. -/
theorem Pinned.removeConstraint (h : Pinned s n v σ marker k) (hs : Sound s) {c : Constraint K}
    (other : c.id ≠ n) {E : Variable → Nat} (counted : Counted E (s.removeConstraint c).2) :
    Pinned (s.removeConstraint c).2 n v σ marker k := by
  obtain ⟨mine, hmine, hmarker, hv⟩ := h.held
  have kept : (s.removeConstraint c).2.held.get? n = some mine := by
    rcases removeConstraint_held s c with held | held
    · rw [held, hmine]
    · rw [held, OrderedMap.get?_erase, if_neg other.symm, hmine]
  have constraint : mine.constraint ∈ (s.removeConstraint c).2.constraints :=
    List.mem_map_of_mem (List.mem_map_of_mem (OrderedMap.mem_entries_of_get? kept))
  obtain ⟨τ, hτ⟩ := counted.exists_symbolOf constraint hv
  have symbol := symbolOf_of_removeConstraint hτ
  rw [h.symbol] at symbol
  cases symbol
  refine ⟨hτ, h.tied.removeConstraint hs c ?_, ⟨mine, kept, hmarker, hv⟩, ?_⟩
  · intro known hknown hsame
    exact other (h.sole c.id known hknown hsame)
  · intro id known hknown hsame
    rcases removeConstraint_held s c with held | held
    · exact h.sole id known (held ▸ hknown) hsame
    · rw [held, OrderedMap.get?_erase] at hknown
      split at hknown
      · cases hknown
      · exact h.sole id known hknown hsame

end ViewConstraints.Simplex.Solver

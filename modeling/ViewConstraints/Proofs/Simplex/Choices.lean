import ViewConstraints.Proofs.Simplex.Tableau

/-!
# The symbols that are chosen

Which symbol enters the basis, which leaves it and which a new row is solved for is decided by what
stands in the tableau. The marker of a required equation is never chosen to enter, the symbol of an
unknown never leaves in a pivot, and a marker leaves through a row in which it stands.
-/

namespace ViewConstraints.Simplex.Solver

/-- Slacks and errors are not symbols of unknowns. -/
theorem isExternal_of_isPivotable {σ : Symbol} (h : σ.isPivotable = true) : σ.isExternal = false := by
  obtain ⟨id, kind⟩ := σ
  cases kind <;> simp_all [Symbol.isPivotable, Symbol.isExternal]

/-- The symbol of an unknown is no dummy. -/
theorem isDummy_of_isExternal {τ : Symbol} (h : τ.isExternal = true) : τ.isDummy = false := by
  obtain ⟨id, kind⟩ := τ
  cases kind <;> simp_all [Symbol.isExternal, Symbol.isDummy]

theorem isDummy_of_isPivotable {τ : Symbol} (h : τ.isPivotable = true) : τ.isDummy = false := by
  obtain ⟨id, kind⟩ := τ
  cases kind <;> simp_all [Symbol.isPivotable, Symbol.isDummy]

variable {K : Type} [Scalar K] {s : Solver K}

/-- The symbol that is to enter the basis stands in a cell of the cost. -/
theorem entering?_has {objective : Row K} {σ : Symbol} (h : entering? objective = some σ) :
    objective.Has σ := by
  obtain ⟨e, he, rfl⟩ := Option.map_eq_some_iff.1 h
  exact Row.has_of_mem_entries (List.mem_of_find?_eq_some he)

/-- A marker of a required equation never enters the basis to lower the cost. -/
theorem entering?_not_dummy {objective : Row K} {τ : Symbol} (h : entering? objective = some τ) :
    τ.isDummy = false := by
  obtain ⟨e, he, rfl⟩ := Option.map_eq_some_iff.1 h
  have suits := List.find?_some he
  rw [Bool.and_eq_true, Bool.not_eq_true'] at suits
  exact suits.1

/-- The better of two rows is one of them. -/
theorem tighter_eq_some {best : Option (Symbol × K)} {symbol : Symbol} {bound : K} {b : Symbol × K}
    (h : tighter best symbol bound = some b) : b.1 = symbol ∨ best = some b := by
  unfold tighter at h
  split at h
  · split at h
    · cases h
      exact .inl rfl
    · cases h
  · split at h
    · cases h
      exact .inl rfl
    · exact .inr h

/-- No symbol of an unknown leaves the basis in a pivot. The choice goes through the rows and keeps
the tightest so far, and those of unknowns are never looked at. -/
theorem leaving?_not_external {entering leaving : Symbol} (h : s.leaving? entering = some leaving) :
    leaving.isExternal = false := by
  have kept (l : List (Symbol × Row K)) (best : Option (Symbol × K))
      (hbest : ∀ b, best = some b → b.1.isExternal = false) :
      ∀ b, l.foldl (fun best e =>
        if !e.1.isExternal && decide (e.2.coefficient entering < 0.0) then
          tighter best e.1 (-e.2.constant / e.2.coefficient entering)
        else best) best = some b → b.1.isExternal = false := by
    induction l generalizing best with
    | nil => exact hbest
    | cons e l ih =>
      refine ih _ ?_
      intro b hb
      dsimp only at hb
      split at hb
      next hc =>
        rw [Bool.and_eq_true, Bool.not_eq_true'] at hc
        rcases tighter_eq_some hb with heq | hb
        · exact heq ▸ hc.1
        · exact hbest b hb
      next => exact hbest b hb
  obtain ⟨b, hb, rfl⟩ := Option.map_eq_some_iff.1 h
  exact kept s.rows.entries none nofun b hb

/-- Every row among the best is one of `P`. -/
structure LeavingRows.Among (P : Symbol → Prop) (best : LeavingRows K) : Prop where
  negative : ∀ b, best.negative = some b → P b.1
  positive : ∀ b, best.positive = some b → P b.1
  external : ∀ b, best.external = some b → P b

/-- A row is among the best only if the marker does not have the coefficient zero in it. -/
theorem LeavingRows.Among.consider {P : Symbol → Prop} {best : LeavingRows K} (h : best.Among P)
    {τ symbol : Symbol} {row : Row K} (hrow : (row.coefficient τ == 0.0) = false → P symbol) :
    (best.consider τ symbol row).Among P := by
  unfold LeavingRows.consider
  dsimp only
  split
  · exact h
  next hc =>
    have here := hrow (Bool.eq_false_iff.2 hc)
    have better {best : Option (Symbol × K)} {bound : K} (hbest : ∀ b, best = some b → P b.1) :
        ∀ b, tighter best symbol bound = some b → P b.1 := by
      intro b hb
      rcases tighter_eq_some hb with heq | hb
      · exact heq ▸ here
      · exact hbest b hb
    split
    · exact ⟨h.negative, h.positive, fun b hb => Option.some.inj hb ▸ here⟩
    · split
      · exact ⟨better h.negative, h.positive, h.external⟩
      · exact ⟨h.negative, better h.positive, h.external⟩

/-- A marker leaves through a row in which it does not have the coefficient zero. -/
theorem markerLeaving?_has {τ leaving : Symbol} (h : s.markerLeaving? τ = some leaving) :
    ∃ r, (leaving, r) ∈ s.rows.entries ∧ (r.coefficient τ == 0.0) = false := by
  let P (b : Symbol) : Prop := ∃ r, (b, r) ∈ s.rows.entries ∧ (r.coefficient τ == 0.0) = false
  have kept (l : List (Symbol × Row K)) (hl : l ⊆ s.rows.entries) (best : LeavingRows K)
      (hbest : best.Among P) :
      (l.foldl (fun best e => best.consider τ e.1 e.2) best).Among P := by
    induction l generalizing best with
    | nil => exact hbest
    | cons e l ih =>
      exact ih (List.subset_of_cons_subset hl) _ (hbest.consider fun hc => ⟨e.2, hl (.head _), hc⟩)
  have among := kept s.rows.entries (List.Subset.refl _) {} ⟨nofun, nofun, nofun⟩
  rw [markerLeaving?] at h
  rcases Option.or_eq_some_iff.1 h with h | ⟨-, h⟩
  · obtain ⟨b, hb, rfl⟩ := Option.map_eq_some_iff.1 h
    exact among.negative b hb
  · rcases Option.or_eq_some_iff.1 h with h | ⟨-, h⟩
    · obtain ⟨b, hb, rfl⟩ := Option.map_eq_some_iff.1 h
      exact among.positive b hb
    · exact among.external leaving h

/-- The symbol a new row is solved for stands in the row, or comes with its constraint. -/
theorem subject?_eq_some {row : Row K} {tag : Tag} {σ : Symbol} (h : subject? row tag = some σ) :
    row.Has σ ∨ σ = tag.marker ∨ tag.other = some σ := by
  rw [subject?] at h
  split at h
  next c he =>
    cases h
    exact .inl (Row.has_of_mem_entries (List.mem_of_find?_eq_some he))
  next =>
    dsimp only at h
    split at h
    · cases h
      exact .inr (.inl rfl)
    · exact .inr (.inr (Option.filter_eq_some_iff.1 h).1)

/-- A new row is not solved for a marker of a required equation. -/
theorem subject?_not_dummy {row : Row K} {tag : Tag} {τ : Symbol} (h : subject? row tag = some τ) :
    τ.isDummy = false := by
  rw [subject?] at h
  split at h
  next c he =>
    cases h
    have external : τ.isExternal = true := List.find?_some (p := fun e : Symbol × K => e.1.isExternal) he
    exact isDummy_of_isExternal external
  next =>
    dsimp only at h
    split at h
    next suits =>
      cases h
      exact isDummy_of_isPivotable (Bool.and_eq_true_iff.1 suits).1
    next =>
      have suits := (Option.filter_eq_some_iff.1 h).2
      exact isDummy_of_isPivotable (Bool.and_eq_true_iff.1 suits).1

end ViewConstraints.Simplex.Solver

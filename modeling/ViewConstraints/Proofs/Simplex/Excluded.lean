import ViewConstraints.Proofs.Simplex.Pinned
import ViewConstraints.Proofs.Simplex.Refusal

/-!
# Numbers that an unknown cannot be held at

A constraint that is not held yet is unsatisfiable in one of two ways: its row contradicts what is
required at sight, or the row cannot be made to hold when it is tried (`addConstraint_unsatisfiable_iff`).
For the required equation that an unknown is a number (`Excludes`) this can be told from the row of the
unknown: an unknown that is not in use or not basic excludes no number (`not_excludes_of_loose`), and one
that required equations give a number excludes what is not near that number (`RestsAt.excludes_iff`).
-/

namespace ViewConstraints

open Linear

/-- How far apart two numbers are, as the row of an equation has it. -/
def distance {K : Type} [Scalar K] (x k : K) : K :=
  if (0.0 - x) + k * 1.0 < 0.0 then -((0.0 - x) + k * 1.0) else (0.0 - x) + k * 1.0

namespace Simplex

namespace Row

variable {K : Type}

theorem has_of_mem_keys {r : Row K} {τ : Symbol} (h : τ ∈ r.cells.keys) : r.Has τ :=
  fun hnone => OrderedMap.notMem_keys_of_get? hnone h

theorem allDummy_of_has {r : Row K} (h : ∀ τ, r.Has τ → τ.isDummy = true) : r.allDummy = true :=
  List.all_eq_true.2 fun τ hτ => h τ (has_of_mem_keys hτ)

/-- Another cell is kept, and a new one is made unless it is near zero. -/
theorem has_addCell [Scalar K] {r : Row K} {s τ : Symbol} {c : K} (hs : ¬ r.Has s)
    (hc : isNearZero c = false) (h : r.Has τ ∨ τ = s) : (r.addCell s c).Has τ := by
  rw [Row.Has]
  rcases h with h | rfl
  · have apart : τ ≠ s := by
      rintro rfl
      exact hs h
    rw [get?_addCell_ne apart]
    exact h
  · rw [get?_addCell_self hs hc]
    exact Option.some_ne_none c

end Row

namespace Solver

variable {K : Type} [Scalar K] {s : Solver K} {n : Nat} {v : Variable} {x k : K}

/-! ## Ways to be unsatisfiable -/

/-- The row of a constraint has to be tried through an artificial symbol, which cannot be driven to
zero. -/
def Strains (s : Solver K) (c : Constraint K) : Prop :=
  subject? (s.rowOf c).1 (s.rowOf c).2.1 = none ∧ (s.rowOf c).1.allDummy = false ∧
    ((s.rowOf c).2.2.addArtificially (s.rowOf c).1).1 = .ok false

/-- The unknown `v` cannot be held at the number `x`. -/
def Excludes (s : Solver K) (v : Variable) (x : K) : Prop :=
  s.Contradicts (equation 0 v x) ∨ s.Strains (equation 0 v x)

/-- A row is found unsatisfiable in two ways: outright, when it says of dummies alone that they are a
number other than zero, or after a trial with an artificial symbol. -/
theorem addRow_unsatisfiable_iff (s : Solver K) (row : Row K) (tag : Tag) :
    (s.addRow row tag).1 = .error .unsatisfiable ↔
      RefusedOutright row tag ∨
        (subject? row tag = none ∧ row.allDummy = false ∧ (s.addArtificially row).1 = .ok false) := by
  unfold RefusedOutright addRow
  cases subject? row tag with
  | some symbol => simp
  | none =>
    cases row.allDummy with
    | true => cases isNearZero row.constant <;> simp
    | false =>
      obtain ⟨answer, t⟩ := s.addArtificially row
      rcases answer with failure | _ | _ <;> simp

/-- A required constraint that is not held is unsatisfiable if its row contradicts what is required, or
if it is tried in vain; and in no other case. -/
theorem addConstraint_unsatisfiable_iff {c : Constraint K} (hc : s.holds c.id = false)
    (required : c.priority = .required) :
    (s.addConstraint c).1 = .error .unsatisfiable ↔ s.Contradicts c ∨ s.Strains c := by
  have added := addRow_unsatisfiable_iff (s.rowOf c).2.2 (s.rowOf c).1 (s.rowOf c).2.1
  have contradicts : s.Contradicts c ↔ RefusedOutright (s.rowOf c).1 (s.rowOf c).2.1 :=
    and_iff_right required
  rw [contradicts, Strains, ← added, addConstraint, if_neg (Bool.eq_false_iff.1 hc)]
  dsimp only
  generalize (s.rowOf c).2.2.addRow (s.rowOf c).1 (s.rowOf c).2.1 = a
  obtain ⟨refusal | _, u⟩ := a
  · simp
  · dsimp only
    generalize Solver.optimise (K := K) _ false = o
    obtain ⟨failure | _, w⟩ := o <;> simp

/-! ## Equations for one unknown -/

/-- Required equations alone give the unknown the number: its row is the number plus multiples of their
markers. -/
def RestsAt (s : Solver K) (v : Variable) (k : K) : Prop :=
  ∃ σ, s.symbolOf v = some σ ∧ Rests (fun τ => τ.isDummy = true ∧ τ.id < s.nextSymbol) σ k s

/-- The unknown has no row of its own: it is not in use, or it is not basic. -/
def Loose (s : Solver K) (v : Variable) : Prop :=
  ∀ σ, s.symbolOf v = some σ → s.rows.get? σ = none

/-- Which number a constraint has does not matter for its row. -/
theorem addConstraint_equation_iff (hn : s.holds n = false) (v : Variable) (x : K) :
    (s.addConstraint (equation n v x)).1 = .error .unsatisfiable ↔ s.Excludes v x :=
  addConstraint_unsatisfiable_iff (c := equation n v x) hn rfl

/-- The row of an equation for an unknown: the number taken off zero and the unknown, or its row if it
is basic, up to a new marker. -/
theorem rowOf_equation_eq (s : Solver K) (n : Nat) (v : Variable) (x : K) :
    let named := addTerm (⟨0.0 - x, ∅⟩, s) ⟨v, 1.0⟩
    let row := named.1.addCell ⟨named.2.nextSymbol, .dummy⟩ 1.0
    s.rowOf (equation n v x) =
      (if row.constant < 0.0 then row.negate else row, ⟨⟨named.2.nextSymbol, .dummy⟩, none⟩,
        (named.2.fresh .dummy).2) :=
  rfl

/-- Whichever sign a row is given, its symbols are the same. -/
theorem has_signed {row : Row K} {τ : Symbol} :
    (if row.constant < 0.0 then row.negate else row).Has τ ↔ row.Has τ := by
  split
  · exact Row.has_negate
  · exact .rfl

/-- A row with an unknown has a symbol to be solved for. -/
theorem subject?_ne_none {row : Row K} {τ : Symbol} (hτ : row.Has τ) (external : τ.isExternal = true)
    (tag : Tag) : subject? row tag ≠ none := by
  obtain ⟨c, hc⟩ := Option.ne_none_iff_exists'.1 hτ
  rw [subject?]
  split
  next => exact Option.some_ne_none _
  next hnone =>
    exact absurd external (List.find?_eq_none.1 hnone _ (OrderedMap.mem_entries_of_get? hc))

/-- A row of markers of required equations has no symbol to be solved for. -/
theorem subject?_of_dummies {row : Row K} {marker : Symbol} (hm : marker.isDummy = true)
    (h : ∀ τ, row.Has τ → τ.isDummy = true) : subject? row ⟨marker, none⟩ = none := by
  have kind {τ : Symbol} (hτ : τ.isDummy = true) : τ.isExternal = false ∧ τ.isPivotable = false := by
    obtain ⟨id, kind⟩ := τ
    cases kind <;> simp_all [Symbol.isDummy, Symbol.isExternal, Symbol.isPivotable]
  have none : row.cells.find? (fun τ _ => τ.isExternal) = none :=
    List.find?_eq_none.2 fun e he => Bool.eq_false_iff.1 (kind (h _ (Row.has_of_mem_entries he))).1
  rw [subject?, none]
  simp [(kind hm).2]

variable [UnitScalar K]

open UnitScalar

/-- A loose unknown can be held at any number: its symbol is not basic, so it stands in the row of the
equation, which is solved for it and not tried. -/
theorem not_excludes_of_loose (hs : Sound s) (h : s.Loose v) (x : K) : ¬ s.Excludes v x := by
  have far : isNearZero (1.0 : K) = false := one_not_near_zero
  have external : ((s.mention v).1).isExternal = true := by
    unfold mention
    split
    next t ht => exact (hs.indexed v t ht).2.1
    next => rfl
  have made : (s.mention v).1.id < (s.mention v).2.nextSymbol := (hs.mention v).2.2
  have free : (s.mention v).2.rows.get? (s.mention v).1 = none := by
    rw [mention_rows]
    unfold mention
    split
    next t ht => exact h t.symbol (by rw [symbolOf, ht]; rfl)
    next => exact hs.coherent.notBasic (Nat.le_refl _)
  have named : addTerm (⟨0.0 - x, ∅⟩, s) ⟨v, 1.0⟩ =
      (Row.addCell ⟨0.0 - x, ∅⟩ (s.mention v).1 1.0, (s.mention v).2) := by
    simp only [addTerm, far, Bool.false_eq_true, if_false, free]
  have has : (s.rowOf (equation 0 v x)).1.Has (s.mention v).1 := by
    rw [rowOf_equation_eq, named]
    dsimp only
    refine has_signed.2 (Row.has_addCell ?_ far (.inl (Row.has_addCell (Row.not_has_empty _ _) far
      (.inr rfl))))
    intro hmarker
    rcases hmarker.of_addCell with heq | hempty
    · rw [← heq] at made
      exact Nat.lt_irrefl _ made
    · exact Row.not_has_empty _ _ hempty
  have solved := subject?_ne_none has external (s.rowOf (equation 0 v x)).2.1
  rintro (⟨-, hnone, -⟩ | ⟨hnone, -⟩)
  · exact solved hnone
  · exact solved hnone

/-- The row of the equation that such an unknown is a number: what the two numbers are apart, up to
markers. -/
theorem RestsAt.rowOf_equation (h : s.RestsAt v k) (n : Nat) (x : K) :
    (s.rowOf (equation n v x)).1.constant = distance x k ∧
    (∀ τ, (s.rowOf (equation n v x)).1.Has τ → τ.isDummy = true) ∧
    subject? (s.rowOf (equation n v x)).1 (s.rowOf (equation n v x)).2.1 = none := by
  have far : isNearZero (1.0 : K) = false := one_not_near_zero
  obtain ⟨σ, hσ, rests⟩ := h
  obtain ⟨t, ht, rfl⟩ := Option.map_eq_some_iff.1 hσ
  obtain ⟨basic, hbasic⟩ := Option.ne_none_iff_exists'.1 rests.basic
  obtain ⟨constant, markers⟩ := rests.rows basic (OrderedMap.mem_entries_of_get? hbasic)
  have symbol : (s.mention v).1 = t.symbol := by rw [mention, ht]
  have named : addTerm (⟨0.0 - x, ∅⟩, s) ⟨v, 1.0⟩ =
      (Row.addRow ⟨0.0 - x, ∅⟩ basic 1.0, (s.mention v).2) := by
    simp only [addTerm, far, Bool.false_eq_true, if_false, symbol, mention_rows, hbasic]
  rw [rowOf_equation_eq, named]
  dsimp only
  have dummies : ∀ τ, (Row.addCell (Row.addRow ⟨0.0 - x, ∅⟩ basic 1.0)
      ⟨(s.mention v).2.nextSymbol, .dummy⟩ 1.0).Has τ → τ.isDummy = true := by
    intro τ hτ
    rcases hτ.of_addCell with rfl | hτ
    · rfl
    · rcases hτ.of_addRow with hempty | hτ
      · exact absurd hempty (Row.not_has_empty _ _)
      · exact (markers τ hτ).1
  have value : (Row.addCell (Row.addRow ⟨0.0 - x, ∅⟩ basic 1.0)
      ⟨(s.mention v).2.nextSymbol, .dummy⟩ 1.0).constant = (0.0 - x) + k * 1.0 := by
    rw [Row.addCell_constant, Row.addRow_constant, constant]
  refine ⟨?_, fun τ hτ => dummies τ (has_signed.1 hτ),
    subject?_of_dummies rfl fun τ hτ => dummies τ (has_signed.1 hτ)⟩
  rw [distance, ← value]
  split
  · rfl
  · rfl

/-- Such an unknown can be held at what is near the number, and at nothing else. -/
theorem RestsAt.excludes_iff (h : s.RestsAt v k) (x : K) :
    s.Excludes v x ↔ isNearZero (distance x k) = false := by
  obtain ⟨constant, dummies, unsolved⟩ := h.rowOf_equation 0 x
  have all := Row.allDummy_of_has dummies
  have required : (equation 0 v x).priority = .required := rfl
  rw [Excludes, Contradicts, RefusedOutright, Strains, unsolved, all, constant]
  simp [required]

/-! ## Unknowns at rest -/

/-- An addition brings a marker of its own, and changes nothing for an unknown at rest. -/
theorem RestsAt.addConstraint (h : s.RestsAt v k) (hs : Sound s) (c : Constraint K) :
    (s.addConstraint c).2.RestsAt v k := by
  obtain ⟨σ, hσ, rests⟩ := h
  have made : s.nextSymbol ≤ (s.rowOf c).2.1.marker.id := by
    rw [(rowOf_symbols s c).1]
    exact (mentionAll_later c.mentioned s).next
  have next := (addConstraint_later s c).next
  exact ⟨σ, symbolOf_addConstraint hσ c,
    (rests.addConstraint hs fun hmarker => Nat.not_lt.2 made hmarker.2).mono
      (fun _ hτ => ⟨hτ.1, Nat.lt_of_lt_of_le hτ.2 next⟩) fun _ hτ => hτ.1⟩

omit [UnitScalar K] in
/-- An unknown at rest is still at rest after a report. -/
theorem RestsAt.fetchChanges (h : s.RestsAt v k) : s.fetchChanges.2.RestsAt v k := by
  obtain ⟨σ, hσ, rests⟩ := h
  have next := fetchChanges_nextSymbol s
  exact ⟨σ, (symbolOf_fetchChanges s v).trans hσ, next ▸ rests.fetchChanges⟩

omit [UnitScalar K] in
/-- An unknown that an equation gives a number is at rest there. -/
theorem Pinned.restsAt {σ marker : Symbol} (h : Pinned s n v σ marker k) : s.RestsAt v k :=
  ⟨σ, h.symbol, h.tied.rests.mono (fun _ hτ => hτ ▸ ⟨h.tied.markerKind, h.tied.made⟩) fun _ hτ => hτ.1⟩

end Solver

end Simplex

end ViewConstraints

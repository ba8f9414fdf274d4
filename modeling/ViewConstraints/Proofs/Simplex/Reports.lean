import ViewConstraints.Proofs.Simplex.Books
import ViewConstraints.Proofs.Simplex.Turns

/-!
# Every change is on record

A solver reports values by difference, from a record of the unknowns that may have changed. `Watched`
says of two solvers, one made from the other, that every unknown whose value is not the same in both
is on record in the second. Every turn of a tableau is watched (`Turn.watched`), since a symbol that
enters the basis had the value zero before, and watched work may follow watched work
(`Watched.trans`).

Values are compared as numbers (`Agree`). What is asked of numbers for this is no more than holds of
binary floating point (`LawfulScalar`).
-/

namespace ViewConstraints

/-- Two numbers are equal, or neither is one. -/
def Agree {K : Type} [Scalar K] (x y : K) : Prop :=
  (x == y) = true ∨ ((x == x) = false ∧ (y == y) = false)

/-- The laws of numeric equality and of adding zero, for numbers that may include some that are not
equal to themselves. -/
class LawfulScalar (K : Type) [Scalar K] : Prop where
  beq_symm : ∀ {x y : K}, (x == y) = true → (y == x) = true
  beq_trans : ∀ {x y z : K}, (x == y) = true → (y == z) = true → (x == z) = true
  add_zero : ∀ {x p : K}, (p == 0.0) = true → Agree (x + p) x

instance : LawfulScalar Rat where
  beq_symm h := beq_iff_eq.2 (beq_iff_eq.1 h).symm
  beq_trans h h' := beq_iff_eq.2 ((beq_iff_eq.1 h).trans (beq_iff_eq.1 h'))
  add_zero {x p} h := by
    have hp : p = 0 := (beq_iff_eq.1 h).trans (by decide +kernel)
    exact .inl (beq_iff_eq.2 (hp ▸ Rat.add_zero x))

section

variable {K : Type} [Scalar K]

theorem Agree.refl (x : K) : Agree x x := by
  cases h : x == x with
  | true => exact .inl h
  | false => exact .inr ⟨h, h⟩

variable [LawfulScalar K]

open LawfulScalar

theorem Agree.symm {x y : K} (h : Agree x y) : Agree y x :=
  h.imp beq_symm And.symm

theorem Agree.trans {x y z : K} (h : Agree x y) (h' : Agree y z) : Agree x z := by
  rcases h with h | ⟨hx, hy⟩
  · rcases h' with h' | ⟨hy, -⟩
    · exact .inl (beq_trans h h')
    · rw [beq_trans (beq_symm h) h] at hy
      cases hy
  · rcases h' with h' | ⟨-, hz⟩
    · rw [beq_trans h' (beq_symm h')] at hy
      cases hy
    · exact .inr ⟨hx, hz⟩

end

namespace Simplex.Solver

open Linear

section

variable {K : Type}

/-- The unknowns that the next report looks at. -/
def pending (s : Solver K) : List Variable := if s.reportedChanges then [] else s.changed

/-- A change is put on record, beside those that are there. -/
theorem mem_pending_markChanged {s : Solver K} {symbol : Symbol} {v : Variable} :
    v ∈ (s.markChanged symbol).pending ↔ v ∈ s.pending ∨ s.variableOf.get? symbol = some v := by
  rw [markChanged]
  split
  next h => simp [h]
  next w h =>
    have recorded (earlier : List Variable) :
        v ∈ (if w ∈ earlier then earlier else earlier ++ [w]) ↔ v ∈ earlier ∨ w = v := by
      split
      next hw =>
        refine ⟨.inl, ?_⟩
        rintro (hv | rfl)
        · exact hv
        · exact hw
      next => rw [List.mem_append, List.mem_singleton, eq_comm (a := v)]
    rw [h, Option.some.injEq]
    exact recorded s.pending

/-- Several changes are put on record, beside those that are there. -/
theorem mem_pending_foldl_markChanged {α : Type} (f : α → Symbol) (l : List α) {s : Solver K}
    {v : Variable} : v ∈ (l.foldl (fun s a => s.markChanged (f a)) s).pending ↔
      v ∈ s.pending ∨ ∃ a ∈ l, s.variableOf.get? (f a) = some v := by
  induction l generalizing s with
  | nil => simp
  | cons a l ih =>
    rw [List.foldl_cons, ih, mem_pending_markChanged, (markChanged_books s (f a)).variableOf]
    simp [or_assoc]

end

variable {K : Type} [Scalar K] {s t u : Solver K}

/-- Every unknown whose value is not the same in `t` is on record there, with those on record in
`s`. -/
structure Watched (s t : Solver K) : Prop where
  variableOf : t.variableOf = s.variableOf
  pending : ∀ v ∈ s.pending, v ∈ t.pending
  changed : ∀ σ v, σ.isExternal = true → s.variableOf.get? σ = some v →
    v ∈ t.pending ∨ Agree (t.valueOf σ) (s.valueOf σ)

namespace Watched

theorem trans [LawfulScalar K] (h : Watched s t) (h' : Watched t u) : Watched s u where
  variableOf := h'.variableOf.trans h.variableOf
  pending v hv := h'.pending v (h.pending v hv)
  changed σ v hσ hv := by
    rcases h'.changed σ v hσ (h.variableOf ▸ hv) with hu | hu
    · exact .inl hu
    · exact (h.changed σ v hσ hv).imp (h'.pending v) hu.trans

/-- A step that keeps the record and the values of unknowns. -/
theorem of_values (hv : t.variableOf = s.variableOf) (hp : t.pending = s.pending)
    (h : ∀ σ, σ.isExternal = true → t.valueOf σ = s.valueOf σ) : Watched s t :=
  ⟨hv, fun _ h => hp ▸ h, fun σ _ hσ _ => .inr (h σ hσ ▸ .refl _)⟩

end Watched

/-! ## Changes that no unknown sees -/

/-- A symbol that is not of an unknown may leave the basis unrecorded. -/
theorem erase_watched (s : Solver K) {b : Symbol} (hb : b.isExternal = false) :
    Watched s { s with rows := s.rows.erase b } := by
  refine .of_values rfl rfl ?_
  intro σ hσ
  have hne : σ ≠ b := by
    rintro rfl
    rw [hb] at hσ
    cases hσ
  rw [valueOf, valueOf, OrderedMap.get?_erase, if_neg hne]

/-- A symbol that is not of an unknown may enter the basis unrecorded. -/
theorem insert_watched (s : Solver K) {b : Symbol} (hb : b.isExternal = false) (row : Row K) :
    Watched s { s with rows := s.rows.insert b row } := by
  refine .of_values rfl rfl ?_
  intro σ hσ
  have hne : σ ≠ b := by
    rintro rfl
    rw [hb] at hσ
    cases hσ
  rw [valueOf, valueOf, OrderedMap.get?_insert, if_neg hne]

/-- Dropping the column of a symbol that is not basic changes no value. -/
theorem forget_watched (s : Solver K) (symbol : Symbol) : Watched s (s.forget symbol) := by
  refine .of_values rfl rfl ?_
  intro σ _
  rw [valueOf, valueOf, forget, OrderedMap.get?_map]
  cases s.rows.get? σ <;> rfl

/-- Putting a symbol on record leaves the books alone. -/
theorem noteLeaving_books (s : Solver K) (leaving : Symbol) (row : Row K) :
    SameBooks s (s.noteLeaving leaving row) := by
  rw [noteLeaving]
  split
  · exact markChanged_books s leaving
  · exact .refl s

/-! ## Turns -/

variable [LawfulScalar K]

/-- Substitution records every unknown whose constant it moves. Where it records nothing, at most a
zero was added, and the values agree. -/
theorem substitute_watched (s : Solver K) (symbol : Symbol) (row : Row K) :
    Watched s (s.substitute symbol row) := by
  have pendingOf {v : Variable} := mem_pending_foldl_markChanged (fun e : Symbol × Row K => e.1)
    (s.rows.entries.filter fun e => e.1.isExternal && e.2.movesConstant symbol row) (s := s) (v := v)
  refine ⟨(substitute_books s symbol row).variableOf, fun v hv => pendingOf.2 (.inl hv), ?_⟩
  intro σ v hσ hv
  rw [valueOf, valueOf, substitute_rows, OrderedMap.get?_map]
  cases hr : s.rows.get? σ with
  | none => exact .inr (.refl _)
  | some r =>
    dsimp only [Option.map_some]
    rw [Row.substitute]
    cases hc : r.cells.get? symbol with
    | none => exact .inr (.refl _)
    | some c =>
      cases hz : row.constant * c == 0.0 with
      | true =>
        refine .inr ?_
        dsimp only
        rw [Row.addRow_constant]
        exact LawfulScalar.add_zero hz
      | false =>
        refine .inl (pendingOf.2 (.inr ⟨(σ, r), List.mem_filter.2 ⟨?_, ?_⟩, hv⟩))
        · exact OrderedMap.mem_entries_of_get? hr
        · simp [hσ, Row.movesConstant, hc, bne, hz]

/-- A symbol that enters the basis had the value zero, so any other value is recorded. The rows that
it is put into are watched by the substitution. -/
theorem install_watched {symbol : Symbol} (hs : s.rows.get? symbol = none) (row : Row K) :
    Watched s (s.install symbol row) := by
  have put := substitute_watched s symbol row
  refine ⟨(install_books s symbol row).variableOf, ?_, ?_⟩
  · intro v hv
    rw [install]
    split
    · exact mem_pending_markChanged.2 (.inl (put.pending v hv))
    · exact put.pending v hv
  · intro σ v hσ hv
    have recorded : v ∈ (s.substitute symbol row).pending → v ∈ (s.install symbol row).pending := by
      intro hv
      rw [install]
      split
      · exact mem_pending_markChanged.2 (.inl hv)
      · exact hv
    have rows : (s.install symbol row).rows = (s.substitute symbol row).rows.insert symbol row :=
      (install_tableau s symbol row).rows
    by_cases hσs : σ = symbol
    · subst hσs
      have before : s.valueOf σ = 0.0 := by rw [valueOf, hs]
      have after : (s.install σ row).valueOf σ = row.constant := by
        rw [valueOf, rows, OrderedMap.get?_insert, if_pos rfl]
      cases hz : row.constant == 0.0 with
      | true => exact .inr (before ▸ after ▸ .inl hz)
      | false =>
        refine .inl ?_
        rw [install, if_pos (by simp [hσ, bne, hz])]
        exact mem_pending_markChanged.2 (.inr (put.variableOf ▸ hv))
    · have same : (s.install symbol row).valueOf σ = (s.substitute symbol row).valueOf σ := by
        rw [valueOf, valueOf, rows, OrderedMap.get?_insert, if_neg hσs]
      exact same ▸ (put.changed σ v hσ hv).imp_left recorded

/-- A symbol of an unknown that leaves the basis loses its value, which is recorded unless it was
zero. -/
theorem leaving_watched {leaving : Symbol} {row : Row K} (hl : s.rows.get? leaving = some row) :
    Watched s { s.noteLeaving leaving row with
      rows := (s.noteLeaving leaving row).rows.erase leaving } := by
  have rows := (noteLeaving_tableau s leaving row).rows
  refine ⟨(noteLeaving_books s leaving row).variableOf, ?_, ?_⟩
  · intro v hv
    show v ∈ (s.noteLeaving leaving row).pending
    rw [noteLeaving]
    split
    · exact mem_pending_markChanged.2 (.inl hv)
    · exact hv
  · intro σ v hσ hv
    by_cases hσl : σ = leaving
    · subst hσl
      cases hz : row.constant == 0.0 with
      | true =>
        refine .inr ?_
        simp only [valueOf, OrderedMap.get?_erase, if_true, hl]
        exact .inl (LawfulScalar.beq_symm hz)
      | false =>
        refine .inl ?_
        show v ∈ (s.noteLeaving σ row).pending
        rw [noteLeaving, if_pos (by simp [hσ, bne, hz])]
        exact mem_pending_markChanged.2 (.inr hv)
    · refine .inr ?_
      simp only [valueOf, OrderedMap.get?_erase, if_neg hσl, rows]
      exact .refl _

/-- A turn records every unknown whose value it changes. -/
theorem Turn.watched {m : Symbol} (h : Turn m s t) : Watched s t := by
  cases h with
  | install free _ _ => exact install_watched free.notBasic _
  | erase external => exact erase_watched s external
  | forget symbol => exact forget_watched s symbol
  | @start row _ =>
    have basic := insert_watched s (b := ⟨s.nextSymbol, .slack⟩) rfl row
    exact basic.trans (.of_values rfl rfl fun _ _ => rfl)
  | stop | cost _ | hold _ => exact .of_values rfl rfl fun _ _ => rfl
  | @leave leaving row hl _ _ => exact (leaving_watched hl).trans (substitute_watched _ m _)

end Simplex.Solver

end ViewConstraints

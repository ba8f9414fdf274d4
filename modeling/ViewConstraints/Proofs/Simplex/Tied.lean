import ViewConstraints.Proofs.Scalar.Laws
import ViewConstraints.Proofs.Simplex.Mentions
import ViewConstraints.Proofs.Simplex.Sound

/-!
# Unknowns that are tied to a number

An unknown is at rest if it is basic and its row is a number plus multiples of markers of required
equations (`Rests`). Such a marker never enters the basis by itself, an unknown never leaves it in a
pivot, and no other symbol stands in the row. So neither additions, refused or not, nor removals of
other constraints, nor anything the tableau does on the way, change the row (`Rests.addConstraint`,
`Rests.removeConstraint`). An unknown that is new when a required equation gives it a number comes to
rest on the marker of that equation (`Tied`).
-/

namespace ViewConstraints.Simplex

open Linear

namespace Row

variable {K : Type} [Scalar K]

/-- A row without a symbol is left as it is when another row is put in place of the symbol. -/
theorem substitute_of_not_has {r : Row K} {s : Symbol} (h : ¬ r.Has s) (row : Row K) :
    r.substitute s row = r := by
  rw [substitute, Classical.not_not.1 h]

theorem coefficient_of_not_has {r : Row K} {s : Symbol} (h : ¬ r.Has s) : r.coefficient s = 0.0 := by
  rw [coefficient, Classical.not_not.1 h, Option.getD_none]

end Row

namespace Solver

section

variable {K : Type}

/-- The unknown with the symbol `σ` is basic, and equals the number `k` plus multiples of markers of
required equations, all of which satisfy `M`. -/
structure Rests (M : Symbol → Prop) (σ : Symbol) (k : K) (s : Solver K) : Prop where
  unknown : σ.isExternal = true
  markers : ∀ τ, M τ → τ.isDummy = true
  basic : s.rows.get? σ ≠ none
  rows : ∀ r, (σ, r) ∈ s.rows.entries → r.constant = k ∧ ∀ τ, r.Has τ → M τ

/-- The unknown with the symbol `σ` is basic, and equals the number `k` plus a multiple of the marker
of a required equation. -/
structure Tied (σ marker : Symbol) (k : K) (s : Solver K) : Prop where
  unknown : σ.isExternal = true
  markerKind : marker.isDummy = true
  made : marker.id < s.nextSymbol
  basic : s.rows.get? σ ≠ none
  rows : ∀ r, (σ, r) ∈ s.rows.entries → r.constant = k ∧ ∀ τ, r.Has τ → τ = marker

variable {M : Symbol → Prop} {σ marker : Symbol} {k : K} {s t : Solver K}

/-- A tied unknown rests on its marker alone. -/
theorem Tied.rests (h : Tied σ marker k s) : Rests (· = marker) σ k s :=
  ⟨h.unknown, fun _ hτ => hτ ▸ h.markerKind, h.basic, h.rows⟩

/-- An unknown that rests on one marker is tied to its number, as soon as the marker is known to have
been given out. -/
theorem Rests.tied (h : Rests (· = marker) σ k s) (made : marker.id < s.nextSymbol) :
    Tied σ marker k s :=
  ⟨h.unknown, h.markers marker rfl, made, h.basic, h.rows⟩

/-- A step that leaves the rows alone. -/
theorem Tied.of_rows (h : Tied σ marker k s) (hrows : t.rows = s.rows)
    (hnext : s.nextSymbol ≤ t.nextSymbol) : Tied σ marker k t :=
  ⟨h.unknown, h.markerKind, Nat.lt_of_lt_of_le h.made hnext, hrows ▸ h.basic, hrows ▸ h.rows⟩

namespace Rests

/-- A symbol without a row is another than the unknown at rest. -/
theorem ne_of_free (h : Rests M σ k s) {τ : Symbol} (hτ : s.rows.get? τ = none) : τ ≠ σ := by
  rintro rfl
  exact h.basic hτ

/-- So is a symbol that is not that of an unknown: a slack, an error or a dummy. -/
theorem ne_of_not_external (h : Rests M σ k s) {τ : Symbol} (hτ : τ.isExternal = false) :
    τ ≠ σ := by
  rintro rfl
  rw [h.unknown] at hτ
  cases hτ

/-- Markers of which less is known. -/
theorem mono {M' : Symbol → Prop} (h : Rests M σ k s) (hM : ∀ τ, M τ → M' τ)
    (markers : ∀ τ, M' τ → τ.isDummy = true) : Rests M' σ k s :=
  ⟨h.unknown, markers, h.basic, fun r hr => (h.rows r hr).imp_right fun cells τ hτ => hM τ (cells τ hτ)⟩

/-- An unknown rests on markers of required equations, and these are dummies. -/
theorem not_of_not_dummy (h : Rests M σ k s) {τ : Symbol} (hτ : τ.isDummy = false) : ¬ M τ := by
  intro hM
  rw [h.markers τ hM] at hτ
  cases hτ

/-! ## Changes of the rows -/

/-- A step that leaves the rows alone. -/
theorem of_rows (h : Rests M σ k s) (hrows : t.rows = s.rows) : Rests M σ k t :=
  ⟨h.unknown, h.markers, hrows ▸ h.basic, hrows ▸ h.rows⟩

theorem of_tableau (h : Rests M σ k s) (ht : SameTableau s t) : Rests M σ k t := h.of_rows ht.rows

/-- A row for another symbol. -/
theorem insert (h : Rests M σ k s) {b : Symbol} (hb : b ≠ σ) (row : Row K) :
    Rests M σ k { s with rows := s.rows.insert b row } := by
  refine ⟨h.unknown, h.markers, ?_, ?_⟩
  · rw [OrderedMap.get?_insert, if_neg hb.symm]
    exact h.basic
  · intro r hr
    rcases OrderedMap.mem_entries_of_insert hr with heq | hr
    · exact absurd (congrArg Prod.fst heq).symm hb
    · exact h.rows r hr

/-- Another symbol loses its row. -/
theorem erase (h : Rests M σ k s) {b : Symbol} (hb : b ≠ σ) :
    Rests M σ k { s with rows := s.rows.erase b } := by
  refine ⟨h.unknown, h.markers, ?_, ?_⟩
  · rw [OrderedMap.get?_erase, if_neg hb.symm]
    exact h.basic
  · intro r hr
    exact h.rows r (OrderedMap.mem_entries_of_erase hr)

/-- A change of all rows that keeps the constant and brings no symbol into the row. -/
theorem map (h : Rests M σ k s) {f : Row K → Row K}
    (hf : ∀ r, (∀ τ, r.Has τ → M τ) → (f r).constant = r.constant ∧ ∀ τ, (f r).Has τ → r.Has τ)
    (hrows : t.rows = s.rows.map fun _ r => f r) : Rests M σ k t := by
  refine ⟨h.unknown, h.markers, ?_, ?_⟩
  · rw [hrows, OrderedMap.get?_map, ne_eq, Option.map_eq_none_iff]
    exact h.basic
  · intro r hr
    rw [hrows] at hr
    obtain ⟨⟨_, r'⟩, hr', heq⟩ := List.mem_map.1 hr
    cases heq
    obtain ⟨hconstant, hcells⟩ := h.rows r' hr'
    obtain ⟨hsame, hfewer⟩ := hf r' hcells
    exact ⟨hsame.trans hconstant, fun τ hτ => hcells τ (hfewer τ hτ)⟩

/-- Dropping the column of a symbol takes a cell from the row at most. -/
theorem forget (h : Rests M σ k s) (symbol : Symbol) : Rests M σ k (s.forget symbol) :=
  h.map (f := fun r => r.dropCell symbol) (fun _ _ => ⟨rfl, fun _ hτ => hτ.of_dropCell.2⟩) rfl

theorem release (h : Rests M σ k s) (symbol : Symbol) : Rests M σ k (s.release symbol) := by
  refine h.of_rows ?_
  rw [Solver.release]
  split <;> rfl

end Rests

end

variable {K : Type} [Scalar K] {M : Symbol → Prop} {m σ marker : Symbol} {k : K} {s t : Solver K}

/-- Writing the row of a constraint mentions unknowns and adds to the objective, but
installs nothing. -/
theorem rowOf_rows (s : Solver K) (c : Constraint K) : (s.rowOf c).2.2.rows = s.rows := by
  have terms := foldl_addTerm_snd c.expression.terms (⟨c.expression.constant, ∅⟩, s)
  have rows := (congrArg Solver.rows terms).trans (mentionAll_rows s _)
  rw [rowOf]
  generalize c.expression.terms.foldl addTerm (⟨c.expression.constant, ∅⟩, s) = acc at rows ⊢
  cases c.relation <;> cases c.priority <;> exact rows

namespace Rests

/-- An unknown at rest has the number as its value. -/
theorem valueOf (h : Rests M σ k s) : s.valueOf σ = k := by
  obtain ⟨r, hr⟩ := Option.ne_none_iff_exists'.1 h.basic
  rw [Solver.valueOf, hr]
  exact (h.rows r (OrderedMap.mem_entries_of_get? hr)).1

/-! ## Turns -/

/-- Replacing a symbol by a row does not reach the row of an unknown at rest, unless the symbol is one
of the markers there. -/
theorem substitute (h : Rests M σ k s) {symbol : Symbol} (hs : ¬ M symbol) (row : Row K) :
    Rests M σ k (s.substitute symbol row) := by
  refine h.map ?_ (substitute_rows s symbol row)
  intro r hr
  rw [Row.substitute_of_not_has fun has => hs (hr symbol has)]
  exact ⟨rfl, fun _ => id⟩

/-- A row for another symbol than the unknown and its markers leaves it at rest. -/
theorem install (h : Rests M σ k s) {symbol : Symbol} (hσ : symbol ≠ σ) (hs : ¬ M symbol)
    (row : Row K) : Rests M σ k (s.install symbol row) :=
  ((h.substitute hs row).insert hσ row).of_tableau (install_tableau s symbol row)

variable [UnitScalar K]

/-- No turn changes anything for an unknown at rest, unless it is about a marker on which the unknown
rests: an unknown at rest is not of the symbols that leave, and it has no other marker in its row. -/
theorem turn (h : Rests M σ k s) (apart : ¬ M m) (ht : Turn m s t) : Rests M σ k t := by
  cases ht with
  | install free _ chosen =>
    refine h.install (h.ne_of_free free.notBasic) ?_ _
    rcases chosen with dummy | rfl
    · exact h.not_of_not_dummy dummy
    · exact apart
  | erase external => exact h.erase (h.ne_of_not_external external)
  | forget symbol => exact h.forget symbol
  | @start row _ =>
    have slack : (⟨s.nextSymbol, .slack⟩ : Symbol).isExternal = false := rfl
    exact (h.insert (h.ne_of_not_external slack) row).of_rows rfl
  | stop | cost _ | hold _ => exact h.of_rows rfl
  | @leave leaving row hl has external =>
    have other : leaving ≠ σ := by
      rintro rfl
      obtain ⟨r, hr, hc⟩ := has
      rw [Row.coefficient_of_not_has fun has => apart ((h.rows r hr).2 m has),
        UnitScalar.zero_beq_zero] at hc
      cases hc
    exact ((h.of_tableau (noteLeaving_tableau s leaving row)).erase other).substitute apart _

/-- No run of turns changes anything for an unknown at rest, turn by turn. -/
theorem turns (h : Rests M σ k s) (apart : ¬ M m) (ht : Turns m s t) : Rests M σ k t :=
  ht.keeps h fun turn hu => hu.turn apart turn

end Rests

/-- An unknown that becomes basic with a row of nothing but a marker is tied. -/
theorem Tied.of_install (hσ : σ.isExternal = true) (hm : marker.isDummy = true)
    (made : marker.id < s.nextSymbol) (hbasic : s.rows.get? σ = none) {row : Row K}
    (hrow : ∀ τ, row.Has τ → τ = marker) : Tied σ marker row.constant (s.install σ row) := by
  have rows : (s.install σ row).rows = (s.substitute σ row).rows.insert σ row :=
    (install_tableau s σ row).rows
  have next : (s.install σ row).nextSymbol = s.nextSymbol :=
    (install_tableau s σ row).nextSymbol.trans (substitute_nextSymbol s σ row)
  refine ⟨hσ, hm, next ▸ made, ?_, ?_⟩
  · rw [rows, OrderedMap.get?_insert, if_pos rfl]
    nofun
  · intro r hr
    rw [rows] at hr
    rcases OrderedMap.mem_entries_of_insert hr with heq | hr
    · cases heq
      exact ⟨rfl, hrow⟩
    · have absent : (s.substitute σ row).rows.get? σ = none := by
        rw [substitute_rows, OrderedMap.get?_map, hbasic]
        rfl
      exact absurd (List.mem_map_of_mem hr) (OrderedMap.notMem_keys_of_get? absent)

/-- No marker at all takes part in pivoting. -/
theorem Tied.optimise [UnitScalar K] (h : Tied σ marker k s) (hs : Coherent s) (ofArtificial : Bool) :
    Tied σ marker k (s.optimise ofArtificial).2 := by
  have apart : ¬ (σ = marker) := h.rests.not_of_not_dummy (isDummy_of_isExternal h.unknown)
  exact (h.rests.turns apart (optimise_turns hs ofArtificial)).tied
    (optimise_nextSymbol s ofArtificial ▸ h.made)

/-! ## Requests -/

/-- A report changes nothing for an unknown at rest. -/
theorem Rests.fetchChanges (h : Rests M σ k s) : Rests M σ k s.fetchChanges.2 := by
  refine h.of_rows (fetchChanges_keeps ?_ (fun _ _ _ => rfl) s)
  intro r v
  rcases reportVariable_cases r v with ⟨heq, -⟩ | ⟨x, -, heq⟩ <;> rw [heq]

/-- A report changes nothing for a tied unknown. -/
theorem Tied.fetchChanges (h : Tied σ marker k s) : Tied σ marker k s.fetchChanges.2 :=
  h.rests.fetchChanges.tied (fetchChanges_nextSymbol s ▸ h.made)

section

variable [UnitScalar K]

/-- An addition changes nothing for an unknown at rest, whatever is answered, unless it rests on the
marker of the new constraint. -/
theorem Rests.addConstraint (h : Rests M σ k s) (hs : Sound s) {c : Constraint K}
    (apart : ¬ M (s.rowOf c).2.1.marker) : Rests M σ k (s.addConstraint c).2 := by
  have row : Rests M σ k (s.rowOf c).2.2 := h.of_rows (rowOf_rows s c)
  cases hc : s.holds c.id with
  | true => rwa [addConstraint_of_holds hc]
  | false =>
    by_cases outright : RefusedOutright (s.rowOf c).1 (s.rowOf c).2.1
    · rw [addConstraint_of_refusedOutright hc outright]
      exact row.release _
    · exact row.turns apart (addConstraint_turns hs hc outright)

/-- An addition changes nothing for a tied unknown: the marker of the new constraint is younger. -/
theorem Tied.addConstraint (h : Tied σ marker k s) (hs : Sound s) (c : Constraint K) :
    Tied σ marker k (s.addConstraint c).2 := by
  refine (h.rests.addConstraint hs ?_).tied
    (Nat.lt_of_lt_of_le h.made (addConstraint_later s c).next)
  intro same
  have younger : marker.id < (s.rowOf c).2.1.marker.id := by
    rw [(rowOf_symbols s c).1]
    exact Nat.lt_of_lt_of_le h.made (mentionAll_later c.mentioned s).next
  exact absurd younger (same ▸ Nat.lt_irrefl _)

/-- A removal changes nothing for an unknown at rest, whether or not it fails, unless it rests on the
marker of the constraint. -/
theorem Rests.removeConstraint (h : Rests M σ k s) (hs : Sound s) (c : Constraint K)
    (apart : ∀ held, s.held.get? c.id = some held → ¬ M held.tag.marker) :
    Rests M σ k (s.removeConstraint c).2 := by
  cases hc : s.held.get? c.id with
  | none => rwa [Solver.removeConstraint, hc]
  | some held =>
    obtain ⟨t, turns, ended | ended⟩ := removeConstraint_turns hs hc
    · exact ended ▸ h.turns (apart held hc) turns
    · exact ended ▸ (h.turns (apart held hc) turns).of_rows (unmentionAll_rows t _)

/-- A removal of a constraint with another marker changes nothing for a tied unknown, whether or not
it fails. -/
theorem Tied.removeConstraint (h : Tied σ marker k s) (hs : Sound s) (c : Constraint K)
    (other : ∀ held, s.held.get? c.id = some held → held.tag.marker ≠ marker) :
    Tied σ marker k (s.removeConstraint c).2 :=
  (h.rests.removeConstraint hs c other).tied
    (Nat.lt_of_lt_of_le h.made (removeConstraint_later s c).next)

end

end Solver

end ViewConstraints.Simplex

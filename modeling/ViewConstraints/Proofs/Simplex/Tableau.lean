import ViewConstraints.Proofs.OrderedMap
import ViewConstraints.Simplex.Solver

/-!
# The shape of a tableau

A tableau is coherent when no basic symbol stands in a cell of it and every symbol in it is older
than the next one to be made (`Coherent`). Substitution replaces a symbol in all cells at once, so a
free symbol may become basic (`install_coherent`), and a symbol that leaves the basis is free
(`Coherent.erase`).
-/

namespace ViewConstraints.Simplex

variable {K : Type}

/-! ## Cells of rows -/

namespace Row

/-- A symbol stands in a cell of a row. -/
def Has (r : Row K) (σ : Symbol) : Prop := r.cells.get? σ ≠ none

theorem has_of_mem_entries {r : Row K} {e : Symbol × K} (h : e ∈ r.cells.entries) : r.Has e.1 :=
  fun hnone => OrderedMap.notMem_keys_of_get? hnone (List.mem_map_of_mem h)

theorem not_has_empty (constant : K) (σ : Symbol) : ¬ (⟨constant, ∅⟩ : Row K).Has σ :=
  fun h => h rfl

/-- A cell that is dropped is gone, and no other is new. -/
theorem Has.of_dropCell {r : Row K} {s σ : Symbol} (h : (r.dropCell s).Has σ) :
    σ ≠ s ∧ r.Has σ := by
  rw [Has, dropCell, OrderedMap.get?_erase] at h
  split at h
  next => exact absurd rfl h
  next hne => exact ⟨hne, h⟩

variable [Scalar K]

/-- Adding to the cell of a symbol brings in no symbol but this one. The symbol itself may vanish, if
the cells cancel. -/
theorem Has.of_addCell {r : Row K} {s σ : Symbol} {c : K} (h : (r.addCell s c).Has σ) :
    σ = s ∨ r.Has σ := by
  by_cases hσ : σ = s
  · exact .inl hσ
  · refine .inr ?_
    rw [Has, addCell] at h
    split at h
    · split at h
      · exact h
      · rwa [OrderedMap.get?_insert, if_neg hσ] at h
    · dsimp only at h
      split at h
      · rwa [OrderedMap.get?_erase, if_neg hσ] at h
      · rwa [OrderedMap.get?_insert, if_neg hσ] at h

/-- A symbol of a sum stands in one of the rows that are added. -/
theorem Has.of_addRow {r other : Row K} {σ : Symbol} {c : K} (h : (r.addRow other c).Has σ) :
    r.Has σ ∨ other.Has σ := by
  have summed : ∀ (l : List (Symbol × K)) (r : Row K),
      (l.foldl (fun r e => r.addCell e.1 (e.2 * c)) r).Has σ → r.Has σ ∨ σ ∈ l.map Prod.fst := by
    intro l
    induction l with
    | nil => exact fun _ h => .inl h
    | cons e l ih =>
      intro r h
      rcases ih _ h with h | h
      · rcases h.of_addCell with rfl | h
        · exact .inr (.head _)
        · exact .inl h
      · exact .inr (.tail _ h)
  rcases summed other.cells.entries _ h with h | h
  · exact .inl h
  · obtain ⟨e, he, rfl⟩ := List.mem_map.1 h
    exact .inr (has_of_mem_entries he)

/-- Adding to a cell leaves the constant of a row alone. -/
theorem addCell_constant (r : Row K) (s : Symbol) (c : K) : (r.addCell s c).constant = r.constant := by
  rw [addCell]
  split
  · split <;> rfl
  · dsimp only
    split <;> rfl

/-- Adding a multiple of a row adds the same multiple of its constant. -/
theorem addRow_constant (r other : Row K) (c : K) :
    (r.addRow other c).constant = r.constant + other.constant * c := by
  have kept : ∀ (l : List (Symbol × K)) (r : Row K),
      (l.foldl (fun r e => r.addCell e.1 (e.2 * c)) r).constant = r.constant := by
    intro l
    induction l with
    | nil => exact fun _ => rfl
    | cons e l ih => exact fun r => (ih _).trans (addCell_constant r e.1 _)
  exact kept other.cells.entries _

/-- A multiple of a row has the cells of the row. The factor does not matter here, since no cell is
dropped. -/
theorem has_scale {r : Row K} {σ : Symbol} {c : K} : (r.scale c).Has σ ↔ r.Has σ := by
  rw [Has, Has, scale, OrderedMap.get?_map, ne_eq, ne_eq, Option.map_eq_none_iff]

/-- The opposite of a row has the cells of the row. -/
theorem has_negate {r : Row K} {σ : Symbol} : r.negate.Has σ ↔ r.Has σ := by
  rw [Has, Has, negate, OrderedMap.get?_map, ne_eq, ne_eq, Option.map_eq_none_iff]

/-- Solving a row for a symbol takes the symbol out of its cells and brings in none. -/
theorem Has.of_solveFor {r : Row K} {s σ : Symbol} (h : (r.solveFor s).Has σ) :
    σ ≠ s ∧ r.Has σ := by
  rw [solveFor] at h
  split at h
  next hs => exact ⟨fun heq => h (heq ▸ hs), h⟩
  next => exact (has_scale.1 h).of_dropCell

/-- When a basic symbol is exchanged for a symbol of its row, the basic one enters the cells and the
other leaves them. -/
theorem Has.of_exchange {r : Row K} {basic s σ : Symbol} (h : (r.exchange basic s).Has σ) :
    σ ≠ s ∧ (σ = basic ∨ r.Has σ) :=
  ⟨h.of_solveFor.1, h.of_solveFor.2.of_addCell⟩

/-- A symbol that a row is put in place of is gone, and what is new stands in that row. -/
theorem Has.of_substitute {r row : Row K} {s σ : Symbol} (h : (r.substitute s row).Has σ) :
    (σ ≠ s ∧ r.Has σ) ∨ row.Has σ := by
  rw [substitute] at h
  split at h
  next hs => exact .inl ⟨fun heq => h (heq ▸ hs), h⟩
  next => exact h.of_addRow.imp_left Has.of_dropCell

end Row

namespace Solver

/-! ## Cells of a tableau -/

/-- Two solvers with the same tableau. -/
structure SameTableau (s t : Solver K) : Prop where
  rows : t.rows = s.rows
  objective : t.objective = s.objective
  artificial : t.artificial = s.artificial
  nextSymbol : t.nextSymbol = s.nextSymbol

/-- Every symbol in a cell of the tableau is one of `P`. -/
structure AllCells (P : Symbol → Prop) (s : Solver K) : Prop where
  rows : ∀ b r, s.rows.get? b = some r → ∀ σ, r.Has σ → P σ
  objective : ∀ σ, s.objective.Has σ → P σ
  artificial : ∀ r, s.artificial = some r → ∀ σ, r.Has σ → P σ

/-- A symbol that was made and is not basic. -/
structure Free (s : Solver K) (σ : Symbol) : Prop where
  notBasic : s.rows.get? σ = none
  made : σ.id < s.nextSymbol

/-- Only free symbols stand in cells, and basic symbols were made before. -/
structure Coherent (s : Solver K) : Prop where
  cells : s.AllCells s.Free
  made : ∀ b r, s.rows.get? b = some r → b.id < s.nextSymbol

theorem SameTableau.refl (s : Solver K) : SameTableau s s := ⟨rfl, rfl, rfl, rfl⟩

/-- Work that leaves the tableau alone may be done one after another. -/
theorem SameTableau.trans {s t u : Solver K} (h : SameTableau s t) (h' : SameTableau t u) :
    SameTableau s u :=
  ⟨h'.rows.trans h.rows, h'.objective.trans h.objective, h'.artificial.trans h.artificial,
    h'.nextSymbol.trans h.nextSymbol⟩

/-- A tableau with fewer rows and cells, among symbols of which no fewer were made. -/
theorem Coherent.sub {s t : Solver K} (h : Coherent s)
    (hrows : ∀ b r, t.rows.get? b = some r →
      ∃ r', s.rows.get? b = some r' ∧ ∀ σ, r.Has σ → r'.Has σ)
    (hobjective : ∀ σ, t.objective.Has σ → s.objective.Has σ)
    (hartificial : ∀ r, t.artificial = some r → s.artificial = some r)
    (hnext : s.nextSymbol ≤ t.nextSymbol) : Coherent t := by
  have free : ∀ σ, s.Free σ → t.Free σ := by
    intro σ hσ
    refine ⟨?_, Nat.lt_of_lt_of_le hσ.made hnext⟩
    cases ht : t.rows.get? σ with
    | none => rfl
    | some r =>
      obtain ⟨r', hs, -⟩ := hrows σ r ht
      rw [hσ.notBasic] at hs
      cases hs
  refine ⟨⟨?_, ?_, ?_⟩, ?_⟩
  · intro b r hb σ hσ
    obtain ⟨r', hb', hcells⟩ := hrows b r hb
    exact free σ (h.cells.rows b r' hb' σ (hcells σ hσ))
  · intro σ hσ
    exact free σ (h.cells.objective σ (hobjective σ hσ))
  · intro r hr σ hσ
    exact free σ (h.cells.artificial r (hartificial r hr) σ hσ)
  · intro b r hb
    obtain ⟨r', hb', -⟩ := hrows b r hb
    exact Nat.lt_of_lt_of_le (h.made b r' hb') hnext

/-- Coherence is about the tableau only, and not about what is tracked or on record. -/
theorem Coherent.same {s t : Solver K} (hs : Coherent s) (h : SameTableau s t) : Coherent t :=
  hs.sub (fun _ r hb => ⟨r, h.rows ▸ hb, fun _ => id⟩) (fun _ hσ => h.objective ▸ hσ)
    (fun _ hr => h.artificial ▸ hr) (Nat.le_of_eq h.nextSymbol.symm)

/-- A symbol that was made last is given back without a trace. -/
theorem release_fresh (s : Solver K) (kind : SymbolKind) :
    (s.fresh kind).2.release (s.fresh kind).1 = s := by
  exact if_pos rfl

/-- A symbol is given back only if it was the last that was made. -/
theorem release_nextSymbol (s : Solver K) (symbol : Symbol) :
    (s.release symbol).nextSymbol =
      if symbol.id + 1 = s.nextSymbol then symbol.id else s.nextSymbol := by
  rw [release]
  split <;> rfl

/-- A symbol leaves the basis without a replacement. -/
theorem Coherent.erase {s : Solver K} (h : Coherent s) (b : Symbol) :
    Coherent { s with rows := s.rows.erase b } := by
  refine h.sub (fun c r hc => ⟨r, ?_, fun _ => id⟩) (fun _ => id) (fun _ => id) (Nat.le_refl _)
  rw [OrderedMap.get?_erase] at hc
  split at hc
  · cases hc
  · exact hc

/-- Forgetting a symbol takes cells away and adds none. -/
theorem Coherent.forget {s : Solver K} (h : Coherent s) (symbol : Symbol) :
    Coherent (s.forget symbol) := by
  refine h.sub ?_ (fun _ hσ => hσ.of_dropCell.2) (fun _ => id) (Nat.le_refl _)
  intro b r hb
  rw [Solver.forget, OrderedMap.get?_map] at hb
  obtain ⟨r', hr', rfl⟩ := Option.map_eq_some_iff.1 hb
  exact ⟨r', hr', fun _ hσ => hσ.of_dropCell.2⟩

/-- A basic symbol that loses its row is free. -/
theorem Coherent.free_of_erase {s : Solver K} (h : Coherent s) {leaving : Symbol} {row : Row K}
    (hl : s.rows.get? leaving = some row) {σ : Symbol} (hσ : σ = leaving ∨ s.Free σ) :
    Free { s with rows := s.rows.erase leaving } σ := by
  rcases hσ with rfl | hσ
  · refine ⟨?_, h.made σ row hl⟩
    rw [OrderedMap.get?_erase, if_pos rfl]
  · refine ⟨?_, hσ.made⟩
    rw [OrderedMap.get?_erase, hσ.notBasic, ite_self]

/-- The symbols of the row that is minimised are free, be it the objective or the artificial one. -/
theorem Coherent.free_of_cost {s : Solver K} (h : Coherent s) {ofArtificial : Bool} {σ : Symbol}
    (hσ : (s.cost ofArtificial).Has σ) : s.Free σ := by
  rw [cost] at hσ
  split at hσ
  · cases ha : s.artificial with
    | none =>
      rw [ha] at hσ
      exact h.cells.objective σ hσ
    | some r =>
      rw [ha] at hσ
      exact h.cells.artificial r ha σ hσ
  · exact h.cells.objective σ hσ

/-- A new artificial symbol stands in no cell, as its number was not given out before. -/
theorem startArtificial_coherent {s : Solver K} (h : Coherent s) {row : Row K}
    (hrow : ∀ σ, row.Has σ → s.Free σ) : Coherent (s.startArtificial row).2 := by
  have free : ∀ σ, s.Free σ → (s.startArtificial row).2.Free σ := by
    intro σ hσ
    refine ⟨?_, Nat.lt_succ_of_lt hσ.made⟩
    have hne : σ ≠ ⟨s.nextSymbol, .slack⟩ := by
      rintro rfl
      exact Nat.lt_irrefl _ hσ.made
    exact (OrderedMap.get?_insert ..).trans ((if_neg hne).trans hσ.notBasic)
  refine ⟨⟨?_, fun σ hσ => free σ (h.cells.objective σ hσ), ?_⟩, ?_⟩
  · intro b r hb σ hσ
    simp only [startArtificial, fresh, OrderedMap.get?_insert] at hb
    split at hb
    · cases hb
      exact free σ (hrow σ hσ)
    · exact free σ (h.cells.rows b r hb σ hσ)
  · intro r hr σ hσ
    cases hr
    exact free σ (hrow σ hσ)
  · intro b r hb
    simp only [startArtificial, fresh, OrderedMap.get?_insert] at hb
    split at hb
    next hbs => exact hbs ▸ Nat.lt_succ_self _
    next => exact Nat.lt_succ_of_lt (h.made b r hb)

/-- Another cost. -/
theorem Coherent.setObjective {s : Solver K} (h : Coherent s) {o : Row K}
    (ho : ∀ σ, o.Has σ → s.Free σ) : Coherent { s with objective := o } := by
  have free : ∀ σ, s.Free σ → Free { s with objective := o } σ := fun σ hσ =>
    ⟨hσ.notBasic, hσ.made⟩
  exact ⟨⟨fun b r hb σ hσ => free σ (h.cells.rows b r hb σ hσ), fun σ hσ => free σ (ho σ hσ),
    fun r hr σ hσ => free σ (h.cells.artificial r hr σ hσ)⟩, h.made⟩

/-- To put a change on record leaves the tableau alone. -/
theorem markChanged_tableau (s : Solver K) (symbol : Symbol) :
    SameTableau s (s.markChanged symbol) := by
  rw [markChanged]
  split
  · exact .refl s
  · exact ⟨rfl, rfl, rfl, rfl⟩

/-- To put several changes on record leaves the tableau alone. -/
theorem foldl_markChanged_tableau {α : Type} (f : α → Symbol) (l : List α) (s : Solver K) :
    SameTableau s (l.foldl (fun s a => s.markChanged (f a)) s) := by
  induction l generalizing s with
  | nil => exact .refl s
  | cons a l ih => exact (markChanged_tableau s (f a)).trans (ih _)

variable [Scalar K]

/-! ## Pivoting -/

/-- Substitution acts on each row of the basis by itself. -/
theorem substitute_rows (s : Solver K) (symbol : Symbol) (row : Row K) :
    (s.substitute symbol row).rows = s.rows.map fun _ r => r.substitute symbol row := by
  rw [substitute]
  dsimp only
  rw [(foldl_markChanged_tableau (fun e : Symbol × Row K => e.1) _ s).rows]

/-- Putting a row in place of a symbol makes no symbol. -/
theorem substitute_nextSymbol (s : Solver K) (symbol : Symbol) (row : Row K) :
    (s.substitute symbol row).nextSymbol = s.nextSymbol :=
  (foldl_markChanged_tableau (fun e : Symbol × Row K => e.1) _ s).nextSymbol

/-- Substitution changes no row's basic symbol, so the free symbols stay the same. -/
theorem substitute_free {s : Solver K} {symbol σ : Symbol} {row : Row K} :
    (s.substitute symbol row).Free σ ↔ s.Free σ := by
  have basic : (s.substitute symbol row).rows.get? σ = none ↔ s.rows.get? σ = none := by
    rw [substitute_rows, OrderedMap.get?_map, Option.map_eq_none_iff]
  exact ⟨fun h => ⟨basic.1 h.notBasic, substitute_nextSymbol s symbol row ▸ h.made⟩,
    fun h => ⟨basic.2 h.notBasic, (substitute_nextSymbol s symbol row).symm ▸ h.made⟩⟩

/-- Putting a row of free symbols in place of a symbol leaves the symbol in no cell. -/
theorem substitute_cells {s : Solver K} (h : Coherent s) {symbol : Symbol} {row : Row K}
    (hrow : ∀ σ, row.Has σ → s.Free σ ∧ σ ≠ symbol) :
    (s.substitute symbol row).AllCells fun σ => s.Free σ ∧ σ ≠ symbol := by
  have tableau := foldl_markChanged_tableau (fun e : Symbol × Row K => e.1)
    (s.rows.entries.filter fun e => e.1.isExternal && e.2.movesConstant symbol row) s
  have replaced {r : Row K} (hr : ∀ σ, r.Has σ → s.Free σ) :
      ∀ σ, (r.substitute symbol row).Has σ → s.Free σ ∧ σ ≠ symbol := fun σ hσ =>
    hσ.of_substitute.elim (fun h => ⟨hr σ h.2, h.1⟩) (hrow σ)
  refine ⟨?_, ?_, ?_⟩
  · intro b r hb
    rw [substitute_rows, OrderedMap.get?_map] at hb
    obtain ⟨r', hr', rfl⟩ := Option.map_eq_some_iff.1 hb
    exact replaced (h.cells.rows b r' hr')
  · rw [substitute]
    dsimp only
    rw [tableau.objective]
    exact replaced h.cells.objective
  · intro r hr
    rw [substitute] at hr
    dsimp only at hr
    rw [tableau.artificial] at hr
    obtain ⟨r', hr', rfl⟩ := Option.map_eq_some_iff.1 hr
    exact replaced (h.cells.artificial r' hr')

/-- Substituting a row of free symbols keeps a tableau coherent, the symbol it replaces being free
still. -/
theorem substitute_coherent {s : Solver K} (h : Coherent s) {symbol : Symbol} {row : Row K}
    (hrow : ∀ σ, row.Has σ → s.Free σ ∧ σ ≠ symbol) : Coherent (s.substitute symbol row) := by
  obtain ⟨rows, objective, artificial⟩ := substitute_cells h hrow
  refine ⟨⟨?_, ?_, ?_⟩, ?_⟩
  · intro b r hb σ hσ
    exact substitute_free.2 (rows b r hb σ hσ).1
  · intro σ hσ
    exact substitute_free.2 (objective σ hσ).1
  · intro r hr σ hσ
    exact substitute_free.2 (artificial r hr σ hσ).1
  · intro b r hb
    rw [substitute_rows, OrderedMap.get?_map] at hb
    obtain ⟨r', hr', rfl⟩ := Option.map_eq_some_iff.1 hb
    rw [substitute_nextSymbol]
    exact h.made b r' hr'

/-- A free symbol becomes basic, with a row of other free symbols. That row is put in its place
everywhere else, so that no basic symbol is left in a cell. -/
theorem Coherent.enter {s : Solver K} (h : Coherent s) {symbol : Symbol} {row : Row K}
    (hsymbol : s.Free symbol) (hrow : ∀ σ, row.Has σ → s.Free σ ∧ σ ≠ symbol) {t : Solver K}
    (ht : SameTableau { s.substitute symbol row with
      rows := (s.substitute symbol row).rows.insert symbol row } t) : Coherent t := by
  refine Coherent.same ?_ ht
  obtain ⟨rows, objective, artificial⟩ := substitute_cells h hrow
  have free : ∀ σ, s.Free σ ∧ σ ≠ symbol → Free { s.substitute symbol row with
      rows := (s.substitute symbol row).rows.insert symbol row } σ := by
    intro σ hσ
    have hσ' : (s.substitute symbol row).Free σ := substitute_free.2 hσ.1
    refine ⟨?_, hσ'.made⟩
    rw [OrderedMap.get?_insert, if_neg hσ.2]
    exact hσ'.notBasic
  refine ⟨⟨fun b r hb σ hσ => free σ ?_, fun σ hσ => free σ (objective σ hσ),
    fun r hr σ hσ => free σ (artificial r hr σ hσ)⟩, ?_⟩
  · rw [OrderedMap.get?_insert] at hb
    split at hb
    · cases hb
      exact hrow σ hσ
    · exact rows b r hb σ hσ
  · intro b r hb
    show b.id < (s.substitute symbol row).nextSymbol
    rw [OrderedMap.get?_insert] at hb
    split at hb
    next hbs =>
      have made : (s.substitute symbol row).Free symbol := substitute_free.2 hsymbol
      exact hbs ▸ made.made
    next => exact (substitute_coherent h hrow).made b r hb

/-- What `install` adds to a substitution is a row for the symbol, and at most a change on record. -/
theorem install_tableau (s : Solver K) (symbol : Symbol) (row : Row K) :
    SameTableau { s.substitute symbol row with
      rows := (s.substitute symbol row).rows.insert symbol row } (s.install symbol row) := by
  have h := markChanged_tableau (s.substitute symbol row) symbol
  rw [install]
  dsimp only
  split
  · exact ⟨by rw [h.rows], h.objective, h.artificial, h.nextSymbol⟩
  · exact .refl _

/-- Installing a row for a free symbol keeps a tableau coherent: the symbol is out of all cells before
it becomes basic. -/
theorem install_coherent {s : Solver K} (h : Coherent s) {symbol : Symbol} {row : Row K}
    (hsymbol : s.Free symbol) (hrow : ∀ σ, row.Has σ → s.Free σ ∧ σ ≠ symbol) :
    Coherent (s.install symbol row) :=
  h.enter hsymbol hrow (install_tableau s symbol row)

theorem install_nextSymbol (s : Solver K) (symbol : Symbol) (row : Row K) :
    (s.install symbol row).nextSymbol = s.nextSymbol :=
  (install_tableau s symbol row).nextSymbol.trans (substitute_nextSymbol s symbol row)

/-- Solving the row of a basic symbol for another one gives a row of free symbols, once the basic
symbol is out of the basis. -/
theorem Coherent.exchange {s : Solver K} (h : Coherent s) {leaving entering : Symbol} {row : Row K}
    (hl : s.rows.get? leaving = some row) {σ : Symbol}
    (hσ : (row.exchange leaving entering).Has σ) :
    Free { s with rows := s.rows.erase leaving } σ ∧ σ ≠ entering :=
  ⟨h.free_of_erase hl (hσ.of_exchange.2.imp_right (h.cells.rows leaving row hl σ)),
    hσ.of_exchange.1⟩

/-! ## How many symbols are made -/

/-- Each pivot exchanges symbols that are there, so however many are made, no symbol is. -/
theorem optimiseFor_nextSymbol (ofArtificial : Bool) (fuel : Nat) (s : Solver K) :
    (optimiseFor ofArtificial fuel s).2.nextSymbol = s.nextSymbol := by
  induction fuel generalizing s with
  | zero => rfl
  | succ fuel ih =>
    rw [optimiseFor]
    split
    · rfl
    · split
      · rfl
      · split
        · rfl
        · exact (ih _).trans (install_nextSymbol ..)

/-- Optimisation pivots among symbols that are there, and makes none. -/
theorem optimise_nextSymbol (s : Solver K) (ofArtificial : Bool) :
    (s.optimise ofArtificial).2.nextSymbol = s.nextSymbol :=
  optimiseFor_nextSymbol ofArtificial _ s

/-- Taking an artificial symbol out of the tableau makes no symbol and gives none back. -/
theorem dropArtificial_nextSymbol (s : Solver K) (symbol : Symbol) :
    (s.dropArtificial symbol).2.nextSymbol = s.nextSymbol := by
  rw [dropArtificial]
  split
  · rfl
  · dsimp only
    split
    · rfl
    · split
      · rfl
      · exact substitute_nextSymbol _ _ _

/-- A row that is tried with an artificial symbol costs the number of this symbol, whether the row is
accepted or not. -/
theorem addArtificially_nextSymbol (s : Solver K) (row : Row K) :
    (s.addArtificially row).2.nextSymbol = s.nextSymbol + 1 := by
  have optimal := optimise_nextSymbol (s.startArtificial row).2 true
  have next : (s.startArtificial row).2.nextSymbol = s.nextSymbol + 1 := rfl
  rw [addArtificially]
  generalize s.startArtificial row = p at optimal next ⊢
  obtain ⟨symbol, t⟩ := p
  dsimp only at optimal next ⊢
  split
  next ho =>
    rw [ho] at optimal
    exact optimal.trans next
  next u ho =>
    rw [ho] at optimal
    exact (dropArtificial_nextSymbol { u with artificial := none } symbol).trans
      (optimal.trans next)

/-- A row that is refused without being tried: it is made of markers of required equations alone,
and is not zero. -/
def RefusedOutright (row : Row K) (tag : Tag) : Prop :=
  subject? row tag = none ∧ row.allDummy = true ∧ isNearZero row.constant = false

/-- A row that is refused outright leaves the solver as it was, but for the number of its marker,
which may be given back. -/
theorem addRow_of_refusedOutright (s : Solver K) (row : Row K) (tag : Tag)
    (h : RefusedOutright row tag) :
    s.addRow row tag = (.error .unsatisfiable, s.release tag.marker) := by
  obtain ⟨subject, dummy, constant⟩ := h
  rw [addRow, subject, dummy, constant]
  rfl

/-- A constraint whose row is refused outright leaves behind what was done to write the row: its
unknowns are tracked. -/
theorem addConstraint_of_refusedOutright {s : Solver K} {c : Linear.Constraint K}
    (hc : s.holds c.id = false) (h : RefusedOutright (s.rowOf c).1 (s.rowOf c).2.1) :
    s.addConstraint c =
      (.error .unsatisfiable, (s.rowOf c).2.2.release (s.rowOf c).2.1.marker) := by
  rw [addConstraint, if_neg (by simp [hc])]
  dsimp only
  rw [addRow_of_refusedOutright _ _ _ h]

/-- A row that is not refused outright makes no symbol less. -/
theorem addRow_nextSymbol (s : Solver K) (row : Row K) (tag : Tag)
    (h : ¬ RefusedOutright row tag) : s.nextSymbol ≤ (s.addRow row tag).2.nextSymbol := by
  rw [addRow]
  split
  next hall =>
    split
    · exact Nat.le_of_eq (install_nextSymbol ..).symm
    next hconstant =>
      rw [Bool.and_eq_true, Option.isNone_iff_eq_none] at hall
      exact absurd ⟨hall.1, hall.2, Bool.eq_false_iff.2 hconstant⟩ h
  next =>
    split
    · exact Nat.le_of_eq (install_nextSymbol ..).symm
    · have next := addArtificially_nextSymbol s row
      split <;> rename_i ha <;> rw [ha] at next <;> exact next ▸ Nat.le_succ _

/-- Taking the errors of a constraint out of the objective makes no symbol. -/
theorem removeCost_nextSymbol (s : Solver K) (tag : Tag) (priority : Priority) :
    (s.removeCost tag priority).nextSymbol = s.nextSymbol := by
  rw [removeCost]
  split <;> split <;> (try split) <;> rfl

/-- Taking the marker of a constraint out of the basis makes no symbol. -/
theorem dropMarker_nextSymbol (s : Solver K) (marker : Symbol) :
    (s.dropMarker marker).2.nextSymbol = s.nextSymbol := by
  rw [dropMarker]
  split
  · rfl
  · split
    · rfl
    · split
      · rfl
      · refine (substitute_nextSymbol _ _ _).trans ?_
        dsimp only
        split
        · exact (markChanged_tableau s _).nextSymbol
        · rfl

end Solver

end ViewConstraints.Simplex

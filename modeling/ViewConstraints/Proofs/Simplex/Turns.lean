import Mathlib.Logic.Relation
import ViewConstraints.Proofs.Simplex.Choices

/-!
# The turns of a tableau

The work on a coherent tableau comes down to a few kinds of turns (`Turn`): a free symbol becomes
basic, a symbol that is not of an unknown leaves the basis, an artificial symbol comes and goes, the
cost or the held set changes, and a marker leaves through a row in which it stands. Each turn keeps
the tableau coherent (`Turn.coherent`), and to optimise, to add a row and to drop a marker is to take
one turn after the other (`optimise_turns`, `addRow_turns`, `dropMarker_turns`). What every turn
keeps, all of this work keeps (`Turns.keeps`).
-/

namespace ViewConstraints.Simplex.Solver

variable {K : Type} [Scalar K] {m : Symbol} {s t u : Solver K}

/-- The solver with a symbol on record that is about to leave the basis, if it is of an unknown with a
value other than zero. -/
def noteLeaving (s : Solver K) (leaving : Symbol) (row : Row K) : Solver K :=
  if leaving.isExternal && row.constant != 0.0 then s.markChanged leaving else s

/-- Putting a symbol on record does not touch the tableau. -/
theorem noteLeaving_tableau (s : Solver K) (leaving : Symbol) (row : Row K) :
    SameTableau s (s.noteLeaving leaving row) := by
  rw [noteLeaving]
  split
  · exact markChanged_tableau s leaving
  · exact .refl s

/-- A turn of the tableau. Of the markers of required equations only `m` may become basic in it. -/
inductive Turn (m : Symbol) (s : Solver K) : Solver K → Prop
  /-- A free symbol becomes basic. -/
  | install {symbol : Symbol} {row : Row K} : s.Free symbol →
      (∀ σ, row.Has σ → s.Free σ ∧ σ ≠ symbol) → symbol.isDummy = false ∨ symbol = m →
      Turn m s (s.install symbol row)
  /-- A symbol that is not of an unknown leaves the basis. -/
  | erase {b : Symbol} : b.isExternal = false → Turn m s { s with rows := s.rows.erase b }
  /-- A symbol that is not basic leaves the rows. -/
  | forget (symbol : Symbol) : Turn m s (s.forget symbol)
  /-- An artificial symbol comes. -/
  | start {row : Row K} : (∀ σ, row.Has σ → s.Free σ) → Turn m s (s.startArtificial row).2
  /-- The artificial row goes. -/
  | stop : Turn m s { s with artificial := none }
  /-- The cost is another one of free symbols. -/
  | cost {objective : Row K} : (∀ σ, objective.Has σ → s.Free σ) → Turn m s { s with objective }
  /-- Constraints are held whose symbols were made before, with markers that are not of unknowns. -/
  | hold {held : OrderedMap Nat (Held K)} : (∀ id entry, held.get? id = some entry →
      entry.tag.marker.isExternal = false ∧ entry.tag.marker.id < s.nextSymbol ∧
        ∀ σ, entry.tag.other = some σ → σ.id < s.nextSymbol) → Turn m s { s with held }
  /-- The marker leaves through a row in which it stands. -/
  | leave {leaving : Symbol} {row : Row K} : s.rows.get? leaving = some row →
      (∃ r, (leaving, r) ∈ s.rows.entries ∧ (r.coefficient m == 0.0) = false) →
      m.isExternal = false → Turn m s
        ({ s.noteLeaving leaving row with
          rows := (s.noteLeaving leaving row).rows.erase leaving }.substitute m
            (row.exchange leaving m))

/-- One turn after the other. -/
abbrev Turns (m : Symbol) : Solver K → Solver K → Prop := Relation.ReflTransGen (Turn m)

/-- A turn keeps a tableau coherent. -/
theorem Turn.coherent (h : Turn m s t) (hs : Coherent s) : Coherent t := by
  cases h with
  | install free fits _ => exact install_coherent hs free fits
  | erase _ => exact hs.erase _
  | forget symbol => exact hs.forget symbol
  | start fits => exact startArtificial_coherent hs fits
  | stop => exact hs.sub (fun _ r hb => ⟨r, hb, fun _ => id⟩) (fun _ => id) nofun (Nat.le_refl _)
  | cost fits => exact hs.setObjective fits
  | hold _ => exact hs.same ⟨rfl, rfl, rfl, rfl⟩
  | @leave leaving row hl _ _ =>
    have noted := noteLeaving_tableau s leaving row
    have coherent := hs.same noted
    exact substitute_coherent (coherent.erase leaving) fun σ hσ =>
      coherent.exchange (noted.rows ▸ hl) hσ

/-- No turn gives back a number. -/
theorem Turn.next (h : Turn m s t) : s.nextSymbol ≤ t.nextSymbol := by
  cases h with
  | install _ _ _ => exact Nat.le_of_eq (install_nextSymbol ..).symm
  | start _ => exact Nat.le_succ _
  | erase _ | forget _ | stop | cost _ | hold _ => exact Nat.le_refl _
  | @leave leaving row _ _ _ =>
    rw [substitute_nextSymbol]
    exact Nat.le_of_eq (noteLeaving_tableau s leaving row).nextSymbol.symm

/-- What every turn keeps is kept by one turn after the other. -/
theorem Turns.keeps {P : Solver K → Prop} (h : Turns m s t) (hs : P s)
    (turn : ∀ {u v}, Turn m u v → P u → P v) : P t := by
  induction h with
  | refl => exact hs
  | tail _ last ih => exact turn last ih

theorem Turns.coherent (h : Turns m s t) (hs : Coherent s) : Coherent t :=
  h.keeps hs Turn.coherent

theorem Turns.next (h : Turns m s t) : s.nextSymbol ≤ t.nextSymbol :=
  h.keeps (Nat.le_refl _) fun turn hu => Nat.le_trans hu turn.next

/-! ## Pivoting -/

/-- A pivot exchanges a basic symbol, which is not of an unknown, for a free one, which is no marker of
a required equation. -/
theorem pivot_turns (hs : Coherent s) {leaving entering : Symbol} {row : Row K}
    (hl : s.rows.get? leaving = some row) (external : leaving.isExternal = false)
    (free : s.Free entering) (dummy : entering.isDummy = false) :
    Turns m s (s.pivot leaving entering row) :=
  .tail (.single (.erase external)) <|
    .install (hs.free_of_erase hl (.inr free)) (fun _ hσ => hs.exchange hl hσ) (.inl dummy)

/-- Pivoting is a sequence of turns, however it ends. The induction is on the pivots left. -/
theorem optimiseFor_turns (ofArtificial : Bool) (fuel : Nat) {s : Solver K} (hs : Coherent s) :
    Turns m s (optimiseFor ofArtificial fuel s).2 := by
  induction fuel generalizing s with
  | zero => exact .refl
  | succ fuel ih =>
    rw [optimiseFor]
    split
    · exact .refl
    next entering he =>
      split
      · exact .refl
      next leaving hl =>
        split
        · exact .refl
        next row hrow =>
          have pivoted : Turns m s (s.pivot leaving entering row) := pivot_turns hs hrow
            (leaving?_not_external hl) (hs.free_of_cost (entering?_has he)) (entering?_not_dummy he)
          exact pivoted.trans (ih (pivoted.coherent hs))

/-- To optimise is to take turns, one for each exchange, until the cost cannot be lowered or the limit
is reached. -/
theorem optimise_turns (hs : Coherent s) (ofArtificial : Bool) :
    Turns m s (s.optimise ofArtificial).2 :=
  optimiseFor_turns ofArtificial _ hs

/-! ## Rows that are added and removed -/

/-- A symbol that is not of an unknown is not recorded as it becomes basic. -/
theorem install_of_not_external {symbol : Symbol} (h : symbol.isExternal = false) (row : Row K) :
    s.install symbol row = { s.substitute symbol row with
      rows := (s.substitute symbol row).rows.insert symbol row } := by
  rw [install, if_neg (by simp [h])]

/-- An artificial symbol leaves the basis, and another one takes its place if there is one that may be
basic. -/
theorem dropArtificial_turns (hs : Coherent s) {symbol : Symbol} (external : symbol.isExternal = false) :
    Turns m s (s.dropArtificial symbol).2 := by
  rw [dropArtificial]
  split
  · exact .single (.forget symbol)
  next basic hb =>
    have erased : Turn m s { s with rows := s.rows.erase symbol } := .erase external
    dsimp only
    split
    · exact .single erased
    · split
      · exact .single erased
      next entering _ he =>
        have pivotable : entering.isPivotable = true :=
          List.find?_some (p := fun e : Symbol × K => e.1.isPivotable) he
        have has := Row.has_of_mem_entries (List.mem_of_find?_eq_some he)
        have entered : Turn m { s with rows := s.rows.erase symbol }
            (Solver.install { s with rows := s.rows.erase symbol } entering
              (basic.exchange symbol entering)) :=
          .install (hs.free_of_erase hb (.inr (hs.cells.rows symbol basic hb entering has)))
            (fun _ hσ => hs.exchange hb hσ) (.inl (isDummy_of_isPivotable pivotable))
        rw [install_of_not_external (isExternal_of_isPivotable pivotable)] at entered
        exact .tail (.tail (.single erased) entered) (.forget symbol)

/-- A row is added artificially in three parts: the artificial symbol comes, its row is optimised, and
the symbol leaves again, whatever came out. -/
theorem addArtificially_turns (hs : Coherent s) {row : Row K} (hrow : ∀ σ, row.Has σ → s.Free σ) :
    Turns m s (s.addArtificially row).2 := by
  have started : Turns m s (s.startArtificial row).2 := .single (.start hrow)
  have external : (s.startArtificial row).1.isExternal = false := rfl
  rw [addArtificially]
  generalize s.startArtificial row = p at started external ⊢
  obtain ⟨symbol, t⟩ := p
  have optimal := started.trans (optimise_turns (started.coherent hs) true)
  dsimp only at optimal external ⊢
  split
  next ho => rwa [ho] at optimal
  next u ho =>
    rw [ho] at optimal
    have without : Turns m s { u with artificial := none } := optimal.tail .stop
    exact without.trans (dropArtificial_turns (without.coherent hs) external)

/-- A new row of free symbols, among which are those that come with its constraint, unless it is
refused without being tried. -/
theorem addRow_turns (hs : Coherent s) {row : Row K} {tag : Tag} (hrow : ∀ σ, row.Has σ → s.Free σ)
    (hmarker : s.Free tag.marker) (hother : ∀ σ, tag.other = some σ → s.Free σ)
    (tried : ¬ RefusedOutright row tag) : Turns tag.marker s (s.addRow row tag).2 := by
  have solved {symbol : Symbol} (free : s.Free symbol)
      (chosen : symbol.isDummy = false ∨ symbol = tag.marker) :
      Turns tag.marker s (s.install symbol (row.solveFor symbol)) :=
    .single (.install free (fun σ hσ => ⟨hrow σ hσ.of_solveFor.2, hσ.of_solveFor.1⟩) chosen)
  rw [addRow]
  split
  next hall =>
    split
    · exact solved hmarker (.inr rfl)
    next hconstant =>
      rw [Bool.and_eq_true, Option.isNone_iff_eq_none] at hall
      exact absurd ⟨hall.1, hall.2, Bool.eq_false_iff.2 hconstant⟩ tried
  next =>
    split
    next symbol hsubject =>
      refine solved ?_ (.inl (subject?_not_dummy hsubject))
      rcases subject?_eq_some hsubject with has | rfl | hsome
      · exact hrow symbol has
      · exact hmarker
      · exact hother symbol hsome
    next =>
      have added := addArtificially_turns (m := tag.marker) hs hrow
      split <;> rename_i ha <;> rw [ha] at added <;> exact added

/-- Taking the cost of an error out of the objective brings in the symbols of its row at most, which
are free. -/
theorem removeErrorCost_turn (hs : Coherent s) {error : Symbol} (made : error.id < s.nextSymbol)
    (priority : Priority) : Turn m s (s.removeErrorCost error priority) := by
  refine .cost ?_
  intro σ hσ
  cases hr : s.rows.get? error with
  | none =>
    rw [hr] at hσ
    rcases hσ.of_addCell with rfl | hσ
    · exact ⟨hr, made⟩
    · exact hs.cells.objective σ hσ
  | some row =>
    rw [hr] at hσ
    rcases hσ.of_addRow with hσ | hσ
    · exact hs.cells.objective σ hσ
    · exact hs.cells.rows error row hr σ hσ

/-- The cost of a constraint is taken out for its marker and for its other symbol. -/
theorem removeCost_turns (hs : Coherent s) {tag : Tag} (hmarker : tag.marker.id < s.nextSymbol)
    (hother : ∀ σ, tag.other = some σ → σ.id < s.nextSymbol) (priority : Priority) :
    Turns m s (s.removeCost tag priority) := by
  have first : Turns m s (if tag.marker.kind = .error then s.removeErrorCost tag.marker priority
      else s) := by
    split
    · exact .single (removeErrorCost_turn hs hmarker priority)
    · exact .refl
  rw [removeCost]
  split
  next other ho =>
    split
    · exact first.tail (removeErrorCost_turn (first.coherent hs)
        (Nat.lt_of_lt_of_le (hother other ho) first.next) priority)
    · exact first
  next => exact first

/-- A marker that leaves the tableau leaves it through the row of a basic symbol. -/
theorem dropMarker_turns (external : m.isExternal = false) : Turns m s (s.dropMarker m).2 := by
  rw [dropMarker]
  split
  · exact .single (.erase external)
  · split
    · exact .refl
    next leaving hl =>
      split
      · exact .refl
      next row hrow => exact .single (.leave hrow (markerLeaving?_has hl) external)

end ViewConstraints.Simplex.Solver

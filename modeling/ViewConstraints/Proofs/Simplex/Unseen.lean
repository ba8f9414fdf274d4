import ViewConstraints.Proofs.Simplex.Tableau

/-!
# What the work on a tableau does not see

To bring a row into the tableau, to take one out and to pivot is to read the tableau, to write it and
to record the unknowns that may have changed. Nothing else of the solver is looked at. A relation
between solvers with the same tableau that lasts when both record the same symbol as changed and when
the same is written into both tableaux (`Unseen`) therefore lasts through all of this work, and the
two solvers answer alike. What a single solver keeps is a case of it (`Unseen.of_kept`).
-/

namespace ViewConstraints.Simplex.Solver

section

variable {K : Type} {R : Solver K → Solver K → Prop}

/-- Two runs that end with the same answer, in solvers that are related. -/
def Alike (R : Solver K → Solver K → Prop) {α : Type} (p q : α × Solver K) : Prop :=
  ∃ answer u w, p = (answer, u) ∧ q = (answer, w) ∧ R u w

namespace Alike

variable {α : Type} {p q : α × Solver K}

/-- Two runs end alike if they answer the same in related solvers. -/
theorem intro (answer : α) {u w : Solver K} (h : R u w) : Alike R (answer, u) (answer, w) :=
  ⟨answer, u, w, rfl, rfl, h⟩

/-- Runs that end alike have the same answer. -/
theorem answer (h : Alike R p q) : q.1 = p.1 := by
  obtain ⟨_, _, _, rfl, rfl, -⟩ := h
  rfl

/-- Runs that end alike end in related solvers. -/
theorem related (h : Alike R p q) : R p.2 q.2 := by
  obtain ⟨_, _, _, rfl, rfl, h⟩ := h
  exact h

end Alike

/-- A relation between solvers with the same tableau, which lasts when the same is recorded as changed
and when the same is written into both tableaux. -/
structure Unseen (R : Solver K → Solver K → Prop) : Prop where
  same : ∀ {s t}, R s t → SameTableau s t
  marked : ∀ {s t}, R s t → ∀ symbol, R (s.markChanged symbol) (t.markChanged symbol)
  written : ∀ {s t}, R s t → ∀ rows objective artificial nextSymbol,
    R { s with rows, objective, artificial, nextSymbol }
      { t with rows, objective, artificial, nextSymbol }

namespace Unseen

/-- What a solver keeps when changes are recorded and its tableau is written. -/
theorem of_kept {P : Solver K → Prop} (marked : ∀ s symbol, P s → P (s.markChanged symbol))
    (written : ∀ s rows objective artificial nextSymbol, P s →
      P { s with rows, objective, artificial, nextSymbol }) :
    Unseen fun s t => t = s ∧ P s where
  same := by
    rintro s t ⟨rfl, -⟩
    exact .refl t
  marked := by
    rintro s t ⟨rfl, hs⟩ symbol
    exact ⟨rfl, marked t symbol hs⟩
  written := by
    rintro s t ⟨rfl, hs⟩ rows objective artificial nextSymbol
    exact ⟨rfl, written t rows objective artificial nextSymbol hs⟩

variable (h : Unseen R) {s t : Solver K}

include h

/-- Both record the same list of symbols as changed. -/
theorem foldl_markChanged {α : Type} (f : α → Symbol) (l : List α) {s t : Solver K} (hst : R s t) :
    R (l.foldl (fun s a => s.markChanged (f a)) s) (l.foldl (fun s a => s.markChanged (f a)) t) := by
  induction l generalizing s t with
  | nil => exact hst
  | cons a l ih => exact ih (h.marked hst (f a))

/-- Only the rows are written. -/
theorem rows (hst : R s t) (f : OrderedMap Symbol (Row K) → OrderedMap Symbol (Row K)) :
    R { s with rows := f s.rows } { t with rows := f t.rows } := by
  obtain ⟨rows, objective, artificial, next⟩ := h.same hst
  rw [rows, objective, artificial, next]
  exact h.written hst _ _ _ _

/-- Both give a symbol back or neither does, since the next number is part of the tableau. -/
theorem release (hst : R s t) (symbol : Symbol) : R (s.release symbol) (t.release symbol) := by
  obtain ⟨rows, objective, artificial, next⟩ := h.same hst
  rw [Solver.release, Solver.release, next]
  split
  · rw [rows, objective, artificial]
    exact h.written hst _ _ _ _
  · exact hst

/-- Both drop the cells of a symbol. -/
theorem forget (hst : R s t) (symbol : Symbol) : R (s.forget symbol) (t.forget symbol) := by
  obtain ⟨rows, objective, artificial, next⟩ := h.same hst
  rw [Solver.forget, Solver.forget, rows, objective, artificial, next]
  exact h.written hst _ _ _ _

/-- Both minimise the same row. -/
theorem cost (hst : R s t) (ofArtificial : Bool) : t.cost ofArtificial = s.cost ofArtificial := by
  rw [Solver.cost, Solver.cost, (h.same hst).objective, (h.same hst).artificial]

/-- Both start with the same artificial symbol, which has the next number. -/
theorem startArtificial (hst : R s t) (row : Row K) :
    Alike R (s.startArtificial row) (t.startArtificial row) := by
  obtain ⟨rows, objective, artificial, next⟩ := h.same hst
  simp only [Solver.startArtificial, Solver.fresh]
  rw [rows, objective, next]
  exact .intro _ (h.written hst _ _ _ _)

end Unseen

end

namespace Unseen

variable {K : Type} [Scalar K] {R : Solver K → Solver K → Prop} (h : Unseen R) {s t : Solver K}

include h

/-! ## Pivoting -/

/-- Both record the same basic unknowns as changed, as these are told from the rows. -/
theorem substitute (hst : R s t) (symbol : Symbol) (row : Row K) :
    R (s.substitute symbol row) (t.substitute symbol row) := by
  have marked := h.foldl_markChanged (fun e : Symbol × Row K => e.1)
    (s.rows.entries.filter fun e => e.1.isExternal && e.2.movesConstant symbol row) hst
  obtain ⟨rows, objective, artificial, next⟩ := h.same marked
  rw [Solver.substitute, Solver.substitute, (h.same hst).rows]
  rw [rows, objective, artificial, next]
  exact h.written marked _ _ _ _

/-- Both record the symbol that enters, or neither does, as this is told from its row. -/
theorem install (hst : R s t) (symbol : Symbol) (row : Row K) :
    R (s.install symbol row) (t.install symbol row) := by
  have substituted := h.substitute hst symbol row
  rw [Solver.install, Solver.install]
  split
  · exact h.rows (h.marked substituted symbol) fun rows => rows.insert symbol row
  · exact h.rows substituted fun rows => rows.insert symbol row

/-- Both let the same symbol leave and the same one enter. -/
theorem pivot (hst : R s t) (leaving entering : Symbol) (row : Row K) :
    R (s.pivot leaving entering row) (t.pivot leaving entering row) :=
  h.install (h.rows hst fun rows => rows.erase leaving) entering _

/-- The same pivots are made in both tableaux. The induction is on the pivots left. -/
theorem optimiseFor (ofArtificial : Bool) (fuel : Nat) {s t : Solver K} (hst : R s t) :
    Alike R (optimiseFor ofArtificial fuel s) (optimiseFor ofArtificial fuel t) := by
  induction fuel generalizing s t with
  | zero => exact .intro _ hst
  | succ fuel ih =>
    rw [Solver.optimiseFor, Solver.optimiseFor, h.cost hst]
    cases entering? (s.cost ofArtificial) with
    | none => exact .intro _ hst
    | some entering =>
      dsimp only
      rw [leaving?, leaving?, (h.same hst).rows]
      split
      · exact .intro _ hst
      next leaving _ =>
        cases s.rows.get? leaving with
        | none => exact .intro _ hst
        | some row => exact ih (h.pivot hst leaving entering row)

/-- Both optimise with the same bound on pivots, which depends on how many symbols were made. -/
theorem optimise (hst : R s t) (ofArtificial : Bool) :
    Alike R (s.optimise ofArtificial) (t.optimise ofArtificial) := by
  rw [Solver.optimise, Solver.optimise, (h.same hst).nextSymbol]
  exact h.optimiseFor ofArtificial _ hst

/-! ## Rows that are added and removed -/

/-- Both take the artificial symbol out of the basis in the same way, or fail at the same point. -/
theorem dropArtificial (hst : R s t) (symbol : Symbol) :
    Alike R (s.dropArtificial symbol) (t.dropArtificial symbol) := by
  have erased := h.rows hst fun rows => rows.erase symbol
  rw [Solver.dropArtificial, Solver.dropArtificial, (h.same hst).rows]
  rw [(h.same hst).rows] at erased
  cases s.rows.get? symbol with
  | none => exact .intro _ (h.forget hst symbol)
  | some basic =>
    dsimp only
    split
    · exact .intro _ erased
    · split
      · exact .intro _ erased
      next entering _ _ =>
        have substituted := h.substitute erased entering (basic.exchange symbol entering)
        have entered := h.rows substituted fun rows =>
          rows.insert entering (basic.exchange symbol entering)
        exact .intro _ (h.forget entered symbol)

/-- Both accept a row that is tried with an artificial symbol, or both refuse it or fail. -/
theorem addArtificially (hst : R s t) (row : Row K) :
    Alike R (s.addArtificially row) (t.addArtificially row) := by
  obtain ⟨symbol, u, w, hu, hw, started⟩ := h.startArtificial hst row
  rw [Solver.addArtificially, Solver.addArtificially, hu, hw]
  dsimp only
  obtain ⟨answer, u, w, hu, hw, optimal⟩ := h.optimise started true
  rw [hu, hw]
  cases answer with
  | error failure => exact .intro _ optimal
  | ok _ =>
    dsimp only
    obtain ⟨rows, objective, artificial, next⟩ := h.same optimal
    have without : R { u with artificial := none } { w with artificial := none } := by
      rw [rows, objective, next]
      exact h.written optimal _ _ _ _
    obtain ⟨replaced, u', w', hu, hw, dropped⟩ := h.dropArtificial without symbol
    rw [h.cost optimal, hu, hw]
    exact .intro _ dropped

/-- Both bring a row into the tableau in the same way, or refuse it for the same reason. -/
theorem addRow (hst : R s t) (row : Row K) (tag : Tag) :
    Alike R (s.addRow row tag) (t.addRow row tag) := by
  rw [Solver.addRow, Solver.addRow]
  split
  · split
    · exact .intro _ (h.install hst _ _)
    · exact .intro _ (h.release hst _)
  · cases subject? row tag with
    | some symbol => exact .intro _ (h.install hst _ _)
    | none =>
      obtain ⟨answer, u, w, hu, hw, added⟩ := h.addArtificially hst row
      dsimp only
      rw [hu, hw]
      rcases answer with failure | success
      · exact .intro _ added
      · cases success <;> exact .intro _ added

/-- Both take the weight of an error out of the objective. -/
theorem removeErrorCost (hst : R s t) (error : Symbol) (priority : Priority) :
    R (s.removeErrorCost error priority) (t.removeErrorCost error priority) := by
  obtain ⟨rows, objective, artificial, next⟩ := h.same hst
  rw [Solver.removeErrorCost, Solver.removeErrorCost, rows, objective, artificial, next]
  exact h.written hst _ _ _ _

/-- Both take the weights of a constraint's errors out of the objective. -/
theorem removeCost (hst : R s t) (tag : Tag) (priority : Priority) :
    R (s.removeCost tag priority) (t.removeCost tag priority) := by
  have first : R (if tag.marker.kind = .error then s.removeErrorCost tag.marker priority else s)
      (if tag.marker.kind = .error then t.removeErrorCost tag.marker priority else t) := by
    split
    · exact h.removeErrorCost hst tag.marker priority
    · exact hst
  rw [Solver.removeCost, Solver.removeCost]
  split
  next other _ =>
    split
    · exact h.removeErrorCost first other priority
    · exact first
  next => exact first

/-- Both take a marker out of the tableau in the same way, or fail at the same point. -/
theorem dropMarker (hst : R s t) (marker : Symbol) :
    Alike R (s.dropMarker marker) (t.dropMarker marker) := by
  rw [Solver.dropMarker, Solver.dropMarker, markerLeaving?, markerLeaving?]
  simp only [(h.same hst).rows]
  cases s.rows.get? marker with
  | some _ =>
    have erased := h.rows hst fun rows => rows.erase marker
    rw [(h.same hst).rows] at erased
    exact .intro _ erased
  | none =>
    dsimp only
    split
    · exact .intro _ hst
    next leaving _ =>
      cases s.rows.get? leaving with
      | none => exact .intro _ hst
      | some row =>
        refine .intro _ (h.substitute (h.rows ?_ fun rows => rows.erase leaving) _ _)
        split
        · exact h.marked hst leaving
        · exact hst

end Unseen

end ViewConstraints.Simplex.Solver

import ViewConstraints.Proofs.Simplex.Mentions
import ViewConstraints.Proofs.Simplex.Unheeded

/-!
# A solver does not heed what it has reported

A report of changes leaves its mark on the solver: the values reported, and the record of changes,
which is emptied. Nothing else that the solver does depends on either. `Twin s t` says of two solvers
that they differ in these only; they answer additions and removals alike and stay twins
(`Twin.addConstraint`, `Twin.removeConstraint`), and a solver is a twin of itself after a report
(`fetchChanges_twin`).
-/

namespace ViewConstraints.Simplex.Solver

open Linear

section

variable {K : Type} {s t u w : Solver K}

/-- A solver apart from what it keeps of unknowns and of changes. -/
def machine (s : Solver K) : Solver K :=
  { s with tracked := ∅, changed := [], reportedChanges := false }

/-- Two solvers that differ only in what they have reported and in the changes on record. -/
structure Twin (s t : Solver K) : Prop where
  machine : s.machine = t.machine
  symbol : ∀ v, s.symbolOf v = t.symbolOf v
  mentions : ∀ v, s.mentionsOf v = t.mentionsOf v

theorem Twin.refl (s : Solver K) : s.Twin s := ⟨rfl, fun _ => rfl, fun _ => rfl⟩

theorem Twin.symm (h : s.Twin t) : t.Twin s :=
  ⟨h.machine.symm, fun v => (h.symbol v).symm, fun v => (h.mentions v).symm⟩

theorem Twin.trans (h : s.Twin t) (h' : t.Twin u) : s.Twin u :=
  ⟨h.machine.trans h'.machine, fun v => (h.symbol v).trans (h'.symbol v),
    fun v => (h.mentions v).trans (h'.mentions v)⟩

/-- Steps that keep the unknowns and are the same for the machine. -/
theorem Twin.step (h : s.Twin t) (hu : u.tracked = s.tracked) (hw : w.tracked = t.tracked)
    (machine : u.machine = w.machine) : u.Twin w := by
  refine ⟨machine, fun v => ?_, fun v => ?_⟩
  · rw [symbolOf, symbolOf, hu, hw]
    exact h.symbol v
  · rw [mentionsOf, mentionsOf, hu, hw]
    exact h.mentions v

/-- What can be told from the machine is the same for solvers with the same machine. -/
theorem congr_of_machine {α : Type} (f : Solver K → α) (h : s.machine = t.machine)
    (hf : ∀ s : Solver K, f s.machine = f s) : f s = f t :=
  (hf s).symm.trans ((congrArg f h).trans (hf t))

theorem markChanged_machine (s : Solver K) (symbol : Symbol) :
    (s.markChanged symbol).machine = s.machine := by
  rw [markChanged]
  split <;> rfl

/-- Neither what was reported nor the record of changes is heeded. -/
theorem Twin.unheeded : Unheeded (Twin (K := K)) where
  same h :=
    ⟨congr_of_machine rows h.symm.machine fun _ => rfl,
      congr_of_machine objective h.symm.machine fun _ => rfl,
      congr_of_machine artificial h.symm.machine fun _ => rfl,
      congr_of_machine nextSymbol h.symm.machine fun _ => rfl⟩
  marked {s t} h symbol :=
    h.step (markChanged_books s symbol).tracked (markChanged_books t symbol).tracked
      ((markChanged_machine s symbol).trans (h.machine.trans (markChanged_machine t symbol).symm))
  written h rows objective artificial nextSymbol :=
    h.step rfl rfl (congrArg
      (fun s : Solver K => { s with rows, objective, artificial, nextSymbol }) h.machine)
  holding h := congr_of_machine Solver.held h.symm.machine fun _ => rfl
  taken h held := h.step rfl rfl (congrArg (fun s : Solver K => { s with held }) h.machine)

end

/-! ## Unknowns -/

section

variable {K : Type} {s t : Solver K}

/-- An unknown is tracked in both of two twins or in neither, with the same symbol and the same number
of mentions. -/
theorem Twin.tracked_cases (h : s.Twin t) (v : Variable) :
    (s.tracked.get? v = none ∧ t.tracked.get? v = none) ∨
      ∃ x y, s.tracked.get? v = some x ∧ t.tracked.get? v = some y ∧
        x.symbol = y.symbol ∧ x.mentions = y.mentions := by
  have symbol := h.symbol v
  have mentions := h.mentions v
  unfold symbolOf at symbol
  unfold mentionsOf at mentions
  cases hx : s.tracked.get? v with
  | none =>
    cases hy : t.tracked.get? v with
    | none => exact .inl ⟨rfl, rfl⟩
    | some y => simp [hx, hy] at symbol
  | some x =>
    cases hy : t.tracked.get? v with
    | none => simp [hx, hy] at symbol
    | some y =>
      rw [hx, hy] at symbol mentions
      exact .inr ⟨x, y, rfl, rfl, Option.some.inj symbol, mentions⟩

/-- A mention gives an unknown the same symbol in twins, and leaves them twins. -/
theorem Twin.mention (h : s.Twin t) (v : Variable) : Alike Twin (s.mention v) (t.mention v) := by
  have next : s.nextSymbol = t.nextSymbol := congr_of_machine nextSymbol h.machine fun _ => rfl
  suffices (s.mention v).1 = (t.mention v).1 ∧ (s.mention v).2.machine = (t.mention v).2.machine by
    refine ⟨(s.mention v).1, (s.mention v).2, (t.mention v).2, rfl, by rw [this.1],
      this.2, fun w => ?_, fun w => ?_⟩
    · rw [symbolOf_mention, symbolOf_mention, h.symbol, h.symbol, next]
    · rw [mentionsOf_mention, mentionsOf_mention, h.mentions]
  rw [Solver.mention, Solver.mention]
  rcases h.tracked_cases v with ⟨hx, hy⟩ | ⟨x, y, hx, hy, symbol, -⟩
  · rw [hx, hy]
    refine ⟨congrArg (Symbol.mk · .external) next, ?_⟩
    exact congrArg (fun s : Solver K => { s with
      nextSymbol := s.nextSymbol + 1
      variableOf := s.variableOf.insert ⟨s.nextSymbol, .external⟩ v }) h.machine
  · rw [hx, hy]
    exact ⟨symbol, h.machine⟩

/-- An unknown loses its symbol with its last mention, and no other unknown does. -/
theorem symbolOf_unmention (s : Solver K) (v w : Variable) :
    (s.unmention v).symbolOf w =
      if w = v then if s.mentionsOf v - 1 = 0 then none else s.symbolOf v else s.symbolOf w := by
  rw [symbolOf, unmention_get?]
  split
  next hw =>
    unfold symbolOf mentionsOf
    cases s.tracked.get? v with
    | none => rfl
    | some x =>
      rw [Option.bind_some, Option.map_some, Option.map_some, Option.getD_some]
      split <;> rfl
  next => rfl

/-- Taking back a mention leaves twins as twins: whether it was the last shows in the number of
mentions, which is the same in both. -/
theorem Twin.unmention (h : s.Twin t) (v : Variable) : (s.unmention v).Twin (t.unmention v) := by
  refine ⟨?_, fun w => ?_, fun w => ?_⟩
  · rw [Solver.unmention, Solver.unmention]
    rcases h.tracked_cases v with ⟨hx, hy⟩ | ⟨x, y, hx, hy, symbol, mentions⟩
    · rw [hx, hy]
      exact h.machine
    · rw [hx, hy]
      dsimp only
      rw [mentions, symbol]
      split
      · exact congrArg (fun s : Solver K => { s with variableOf := s.variableOf.erase y.symbol })
          h.machine
      · exact h.machine
  · rw [symbolOf_unmention, symbolOf_unmention, h.symbol, h.symbol, h.mentions]
  · rw [mentionsOf_unmention, mentionsOf_unmention, h.mentions]

/-- Taking back several mentions does the same. -/
theorem Twin.unmentionAll (vs : List Variable) {s t : Solver K} (h : s.Twin t) :
    (s.unmentionAll vs).Twin (t.unmentionAll vs) := by
  induction vs generalizing s t with
  | nil => exact h
  | cons v vs ih => exact ih (h.unmention v)

end

variable {K : Type} [Scalar K] {s t : Solver K}

/-! ## Additions and removals -/

/-- Twins answer an addition alike and stay twins. -/
theorem Twin.addConstraint (h : s.Twin t) (c : Constraint K) :
    (s.addConstraint c).1 = (t.addConstraint c).1 ∧
      (s.addConstraint c).2.Twin (t.addConstraint c).2 := by
  have added := Twin.unheeded.addConstraint Twin.mention h c
  exact ⟨added.answer.symm, added.related⟩

/-- Twins answer a removal alike and stay twins. -/
theorem Twin.removeConstraint (h : s.Twin t) (c : Constraint K) :
    (s.removeConstraint c).1 = (t.removeConstraint c).1 ∧
      (s.removeConstraint c).2.Twin (t.removeConstraint c).2 := by
  rcases Twin.unheeded.removeConstraint h c with removed | ⟨u, w, huw, hu, hw⟩
  · exact ⟨removed.answer.symm, removed.related⟩
  · rw [hu, hw]
    exact ⟨rfl, huw.unmentionAll c.mentioned⟩

/-- A report leaves its mark only where nothing else looks. -/
theorem fetchChanges_twin (s : Solver K) : s.fetchChanges.2.Twin s where
  machine := by
    refine fetchChanges_keeps ?_ (fun _ _ _ => rfl) s
    intro r v
    rcases reportVariable_cases r v with ⟨heq, -⟩ | ⟨x, -, heq⟩
    · rw [heq]
    · rw [heq]
      rfl
  symbol := symbolOf_fetchChanges s
  mentions := mentionsOf_fetchChanges s

end ViewConstraints.Simplex.Solver

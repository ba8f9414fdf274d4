import ViewConstraints.Proofs.Simplex.Mentions
import ViewConstraints.Proofs.Simplex.Unheeded

/-!
# Surplus mentions

A refused addition can leave a solver as it was but for the mentions of unknowns, of which it counts
more than before. `Surplus E s t` says that `t` is `s` with `E v` more mentions of each unknown `v`.
The tableau neither reads nor writes what is tracked of unknowns (`withTracked`), and additions,
removals and reports answer the same with a surplus as without it and leave the same surplus behind,
as long as no unknown that has a surplus goes out of use without it (`addConstraint_surplus`,
`removeConstraint_surplus`, `fetchChanges_surplus`).
-/

namespace ViewConstraints.Simplex.Solver

open Linear

section

variable {K : Type} {E : Variable → Nat} {s t u : Solver K}

/-- The solver with something else tracked of unknowns. -/
def withTracked (s : Solver K) (T : OrderedMap Variable (Tracked K)) : Solver K :=
  { s with tracked := T }

/-- Recording that a symbol has changed takes no account of what is tracked. -/
theorem markChanged_withTracked (T : OrderedMap Variable (Tracked K)) (s : Solver K)
    (symbol : Symbol) :
    (s.withTracked T).markChanged symbol = (s.markChanged symbol).withTracked T := by
  simp only [markChanged, withTracked]
  split <;> rfl

/-- `t` is `s` with more mentions counted, `E v` more of each unknown `v` in use. -/
structure Surplus (E : Variable → Nat) (s t : Solver K) : Prop where
  rest : t = s.withTracked t.tracked
  tracked : ∀ v, t.tracked.get? v =
    (s.tracked.get? v).map fun x => { x with mentions := x.mentions + E v }

/-- The unknowns of which there is a surplus are in use. -/
def InUse (E : Variable → Nat) (s : Solver K) : Prop := ∀ v, 0 < E v → ∃ σ, s.symbolOf v = some σ

theorem Surplus.refl (s : Solver K) : Surplus (fun _ => 0) s s :=
  ⟨rfl, fun v => by cases s.tracked.get? v <;> rfl⟩

/-- Unknowns have the same symbols with a surplus as without. -/
theorem Surplus.symbolOf (h : Surplus E s t) (v : Variable) : t.symbolOf v = s.symbolOf v := by
  rw [Solver.symbolOf, Solver.symbolOf, h.tracked]
  cases s.tracked.get? v <;> rfl

theorem Surplus.nextSymbol (h : Surplus E s t) : t.nextSymbol = s.nextSymbol := by
  rw [h.rest]
  rfl

/-- A step that takes no account of what is tracked of unknowns keeps a surplus. -/
theorem Surplus.step (h : Surplus E s t) {u w : Solver K} (hu : u.tracked = s.tracked)
    (hw : w = u.withTracked t.tracked) : Surplus E u w := by
  subst hw
  refine ⟨rfl, ?_⟩
  intro v
  rw [hu]
  exact h.tracked v

/-- A surplus of mentions is not heeded. -/
theorem Surplus.unheeded (E : Variable → Nat) : Unheeded (Surplus (K := K) E) where
  same h := by
    rw [h.rest]
    exact ⟨rfl, rfl, rfl, rfl⟩
  marked {s t} h symbol :=
    h.step (markChanged_books s symbol).tracked (by rw [← markChanged_withTracked, ← h.rest])
  written h _ _ _ _ := h.step rfl (by rw [h.rest]; rfl)
  holding h := by
    rw [h.rest]
    rfl
  taken h _ := h.step rfl (by rw [h.rest]; rfl)

/-- Whether an unknown is in use shows in what is tracked. -/
theorem InUse.step (h : InUse E s) (hu : u.tracked = s.tracked) : InUse E u := by
  intro v hv
  rw [Solver.symbolOf, hu]
  exact h v hv

/-- The same while the unknowns of which there is a surplus are in use. -/
theorem Surplus.unheeded_inUse (E : Variable → Nat) :
    Unheeded fun s t : Solver K => Surplus E s t ∧ InUse E s where
  same h := (unheeded E).same h.1
  marked {s _} h symbol :=
    ⟨(unheeded E).marked h.1 symbol, h.2.step (markChanged_books s symbol).tracked⟩
  written h _ _ _ _ := ⟨(unheeded E).written h.1 _ _ _ _, h.2.step rfl⟩
  holding h := (unheeded E).holding h.1
  taken h _ := ⟨(unheeded E).taken h.1 _, h.2.step rfl⟩

/-- There is no surplus of an unknown that is not in use. -/
theorem InUse.eq_zero (h : InUse E s) {v : Variable} (hv : s.tracked.get? v = none) : E v = 0 := by
  refine Nat.eq_zero_of_not_pos ?_
  intro hpos
  obtain ⟨σ, hσ⟩ := h v hpos
  rw [Solver.symbolOf, hv] at hσ
  cases hσ

/-- A mention takes no unknown out of use. -/
theorem InUse.mention (h : InUse E s) (v : Variable) : InUse E (s.mention v).2 := by
  intro w hw
  rw [symbolOf_mention]
  split
  · exact ⟨_, rfl⟩
  · exact h w hw

/-- A mention of an unknown gives the same symbol with a surplus as without, and counts one more on
either side. An unknown that is new has no surplus. -/
theorem Surplus.mention (h : Surplus E s t) (hs : InUse E s) (v : Variable) :
    Alike (Surplus E) (s.mention v) (t.mention v) := by
  obtain ⟨rest, tracked⟩ := h
  generalize t.tracked = T at rest tracked
  subst rest
  rw [Solver.mention, Solver.mention, show (s.withTracked T).tracked = T from rfl, tracked v]
  cases hv : s.tracked.get? v with
  | some x =>
    refine .intro _ ⟨rfl, ?_⟩
    intro w
    simp only [OrderedMap.get?_insert, tracked w]
    split
    next hw =>
      rw [Option.map_some, hw, Nat.add_right_comm]
    next => rfl
  | none =>
    refine .intro _ ⟨rfl, ?_⟩
    intro w
    simp only [withTracked, OrderedMap.get?_insert, tracked w]
    split
    next hw =>
      rw [Option.map_some, hw, hs.eq_zero hv]
    next => rfl

/-- So a surplus is kept by the mentions of whatever is written into a row. -/
theorem Surplus.mentionable (E : Variable → Nat) :
    Mentionable fun s t : Solver K => Surplus E s t ∧ InUse E s := by
  intro s t h v
  obtain ⟨symbol, u, w, hu, hw, mentioned⟩ := h.1.mention h.2 v
  have used := h.2.mention v
  rw [hu] at used ⊢
  rw [hw]
  exact .intro symbol ⟨mentioned, used⟩

/-- Taking back a mention does the same with a surplus as without, if it does not take an unknown out
of use of which there is a surplus. -/
theorem Surplus.unmention (h : Surplus E s t) {v : Variable} (hs : InUse E (s.unmention v)) :
    Surplus E (s.unmention v) (t.unmention v) := by
  have used := hs.eq_zero (v := v)
  rw [unmention_get?, if_pos rfl] at used
  obtain ⟨rest, tracked⟩ := h
  generalize t.tracked = T at rest tracked
  subst rest
  rw [Solver.unmention, Solver.unmention, show (s.withTracked T).tracked = T from rfl, tracked v]
  cases hv : s.tracked.get? v with
  | none => exact ⟨rfl, tracked⟩
  | some x =>
    rw [hv, Option.bind_some] at used
    dsimp only [Option.map_some]
    by_cases hlast : x.mentions - 1 = 0
    · have hE := used (if_pos hlast)
      rw [if_pos hlast, if_pos (by omega)]
      refine ⟨rfl, ?_⟩
      intro w
      simp only [OrderedMap.get?_erase, tracked w]
      split <;> rfl
    · rw [if_neg hlast, if_neg (by omega)]
      refine ⟨rfl, ?_⟩
      intro w
      simp only [OrderedMap.get?_insert, tracked w]
      split
      next hw => rw [Option.map_some, hw, Nat.sub_add_comm (by omega)]
      next => rfl

/-- The same for several mentions: what is in use after the last was in use all along. -/
theorem Surplus.unmentionAll (vs : List Variable) {s t : Solver K} (h : Surplus E s t)
    (hs : InUse E (s.unmentionAll vs)) : Surplus E (s.unmentionAll vs) (t.unmentionAll vs) := by
  induction vs generalizing s t with
  | nil => exact h
  | cons v vs ih =>
    have first : InUse E (s.unmention v) := fun w hw => by
      obtain ⟨σ, hσ⟩ := hs w hw
      exact ⟨σ, symbolOf_of_unmentionAll vs hσ⟩
    exact ih (h.unmention first) hs

end

variable {K : Type} [Scalar K] {E : Variable → Nat} {s t : Solver K}

/-! ## Requests with a surplus -/

/-- An addition answers the same with a surplus as without, and leaves the surplus behind. -/
theorem addConstraint_surplus (h : Surplus E s t) (hs : InUse E s) (c : Constraint K) :
    (t.addConstraint c).1 = (s.addConstraint c).1 ∧
      Surplus E (s.addConstraint c).2 (t.addConstraint c).2 := by
  have added := (Surplus.unheeded_inUse E).addConstraint (Surplus.mentionable E) ⟨h, hs⟩ c
  exact ⟨added.answer, added.related.1⟩

/-- A removal answers the same with a surplus as without and leaves the surplus behind, unless an
unknown of which there is a surplus goes out of use. -/
theorem removeConstraint_surplus (h : Surplus E s t) (c : Constraint K)
    (hs : InUse E (s.removeConstraint c).2) :
    (t.removeConstraint c).1 = (s.removeConstraint c).1 ∧
      Surplus E (s.removeConstraint c).2 (t.removeConstraint c).2 := by
  rcases (Surplus.unheeded E).removeConstraint h c with removed | ⟨u, w, huw, hu, hw⟩
  · exact ⟨removed.answer, removed.related⟩
  · rw [hu] at hs ⊢
    rw [hw]
    exact ⟨rfl, huw.unmentionAll c.mentioned hs⟩

/-- A report of one unknown says the same with a surplus as without, since it compares values and
counts nothing. -/
theorem reportVariable_surplus {report report' : List (Variable × K) × Solver K}
    (hr : report'.1 = report.1) (h : Surplus E report.2 report'.2) (v : Variable) :
    (reportVariable report' v).1 = (reportVariable report v).1 ∧
      Surplus E (reportVariable report v).2 (reportVariable report' v).2 := by
  obtain ⟨changes, s⟩ := report
  obtain ⟨changes', t⟩ := report'
  cases hr
  obtain ⟨rest, tracked⟩ := h
  dsimp only at rest tracked
  generalize t.tracked = T at rest tracked
  subst rest
  unfold reportVariable
  dsimp only
  rw [show (s.withTracked T).tracked = T from rfl, tracked v]
  cases hv : s.tracked.get? v with
  | none => exact ⟨rfl, rfl, tracked⟩
  | some x =>
    dsimp only [Option.map_some]
    rw [show (s.withTracked T).valueOf x.symbol = s.valueOf x.symbol from rfl]
    split
    · exact ⟨rfl, rfl, tracked⟩
    · refine ⟨rfl, rfl, ?_⟩
      intro w
      simp only [OrderedMap.get?_insert, tracked w]
      split
      next hw => rw [Option.map_some, hw]
      next => rfl

/-- A report says the same with a surplus as without, and leaves the surplus behind. -/
theorem fetchChanges_surplus (h : Surplus E s t) :
    t.fetchChanges.1 = s.fetchChanges.1 ∧ Surplus E s.fetchChanges.2 t.fetchChanges.2 := by
  have reported (vs : List Variable) : ∀ report report' : List (Variable × K) × Solver K,
      report'.1 = report.1 → Surplus E report.2 report'.2 →
      (vs.foldl reportVariable report').1 = (vs.foldl reportVariable report).1 ∧
        Surplus E (vs.foldl reportVariable report).2 (vs.foldl reportVariable report').2 := by
    induction vs with
    | nil => exact fun _ _ hr h => ⟨hr, h⟩
    | cons v vs ih =>
      intro report report' hr h
      obtain ⟨hr', h'⟩ := reportVariable_surplus hr h v
      exact ih _ _ hr' h'
  obtain ⟨rest, tracked⟩ := h
  generalize t.tracked = T at rest tracked
  subst rest
  rw [fetchChanges, fetchChanges, show (s.withTracked T).reportedChanges = s.reportedChanges from rfl]
  cases s.reportedChanges with
  | true => exact reported _ _ _ rfl ⟨rfl, tracked⟩
  | false => exact reported _ _ _ rfl ⟨rfl, tracked⟩

end ViewConstraints.Simplex.Solver

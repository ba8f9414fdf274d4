import ViewConstraints.Proofs.Simplex.Surplus

/-!
# What a refused addition leaves behind

A required constraint can contradict what is required already in a way that shows in its row alone
(`Contradicts`). It is then refused without being tried, and the only trace is that the solver counts
more mentions of its unknowns, if all of them were in use (`addConstraint_of_contradicts`). Every
other refusal of a constraint that is not held leaves symbols in the tableau
(`refused_surplus_iff`).
-/

namespace ViewConstraints.Simplex.Solver

open Linear

/-! ## Mentions of unknowns in use -/

section

variable {K : Type} {E F : Variable → Nat} {s t u : Solver K}

theorem Surplus.trans (h : Surplus E s t) (h' : Surplus F t u) :
    Surplus (fun v => E v + F v) s u where
  rest := by
    rw [h'.rest, h.rest]
    rfl
  tracked v := by
    rw [h'.tracked, h.tracked, Option.map_map]
    cases s.tracked.get? v with
    | none => rfl
    | some x => simp only [Option.map_some, Function.comp, Nat.add_assoc]

/-- One more mention of an unknown in use. -/
theorem mention_surplus {v : Variable} (h : ∃ σ, s.symbolOf v = some σ) :
    Surplus (fun w => if w = v then 1 else 0) s (s.mention v).2 := by
  obtain ⟨σ, hσ⟩ := h
  obtain ⟨x, hx, -⟩ := Option.map_eq_some_iff.1 hσ
  refine ⟨?_, ?_⟩
  · rw [mention, hx]
    rfl
  · intro w
    rw [mention_get?, hx]
    split
    next hw => rw [hw, hx, Option.map_some, Option.elim_some]
    next => cases s.tracked.get? w <;> rfl

/-- Mentions of unknowns that are in use are a surplus, one for each time an unknown is mentioned. -/
theorem mentionAll_surplus (vs : List Variable) {s : Solver K}
    (h : ∀ v ∈ vs, ∃ σ, s.symbolOf v = some σ) : Surplus (fun v => vs.count v) s (s.mentionAll vs) := by
  induction vs generalizing s with
  | nil => exact .refl s
  | cons v vs ih =>
    have first := mention_surplus (h v (.head _))
    have rest := first.trans <| ih fun w hw => first.symbolOf w ▸ h w (.tail _ hw)
    refine ⟨rest.rest, ?_⟩
    intro w
    rw [List.count_cons]
    simp only [beq_iff_eq, eq_comm (a := v), Nat.add_comm (vs.count w)]
    exact rest.tracked w

/-- If mentions make no symbols, the unknowns were in use. -/
theorem symbolOf_of_mentionAll_nextSymbol (vs : List Variable) {s : Solver K}
    (h : (s.mentionAll vs).nextSymbol = s.nextSymbol) :
    ∀ v ∈ vs, ∃ σ, s.symbolOf v = some σ := by
  induction vs generalizing s with
  | nil => exact nofun
  | cons v vs ih =>
    have first := (mention_later s v).next
    have rest : (s.mention v).2.nextSymbol ≤ (s.mentionAll (v :: vs)).nextSymbol :=
      (mentionAll_later vs (s.mention v).2).next
    have used : ∃ σ, s.symbolOf v = some σ := by
      have next := mention_nextSymbol s v
      cases hv : s.symbolOf v with
      | some σ => exact ⟨σ, rfl⟩
      | none =>
        rw [hv, if_pos rfl] at next
        omega
    intro w hw
    rcases List.mem_cons.1 hw with rfl | hw
    · exact used
    · have later := ih (s := (s.mention v).2) (by rw [← mentionAll_cons]; omega) w hw
      rwa [(mention_surplus used).symbolOf] at later

end

/-! ## Refusals -/

variable {K : Type} [Scalar K] {s : Solver K} {c : Constraint K}

/-- A required constraint contradicts what is required already: its row is made of markers of
required equations alone and is not zero. -/
def Contradicts (s : Solver K) (c : Constraint K) : Prop :=
  c.priority = .required ∧ RefusedOutright (s.rowOf c).1 (s.rowOf c).2.1

/-- The symbol that a required constraint brings is given back without a trace. -/
theorem rowOf_release (h : c.priority = .required) :
    (s.rowOf c).2.2.release (s.rowOf c).2.1.marker = s.mentionAll c.mentioned := by
  have mentioned := foldl_addTerm_snd c.expression.terms (⟨c.expression.constant, ∅⟩, s)
  rw [rowOf, Constraint.mentioned, ← mentioned, h]
  cases c.relation <;> exact release_fresh _ _

/-- A contradiction is refused, and leaves the mentions of the constraint behind and nothing else. -/
theorem addConstraint_of_contradicts (hc : s.holds c.id = false) (h : s.Contradicts c) :
    s.addConstraint c = (.error .unsatisfiable, s.mentionAll c.mentioned) := by
  rw [addConstraint_of_refusedOutright hc h.2, rowOf_release h.1]

/-- Any other refusal leaves symbols behind: only the marker of a required constraint that is refused
outright is given back. -/
theorem nextSymbol_lt_of_refused (hc : s.holds c.id = false) {refusal : Refusal}
    (hr : (s.addConstraint c).1 = .error refusal) (h : ¬ s.Contradicts c) :
    s.nextSymbol < (s.addConstraint c).2.nextSymbol := by
  have mentioned := (mentionAll_later c.mentioned s).next
  obtain ⟨marker, next⟩ := rowOf_symbols s c
  unfold Contradicts at h
  rw [addConstraint, if_neg (by simp [hc])] at hr ⊢
  generalize s.rowOf c = r at marker next h hr ⊢
  obtain ⟨row, tag, t⟩ := r
  dsimp only at marker next h hr ⊢
  have added : s.nextSymbol < (t.addRow row tag).2.nextSymbol := by
    by_cases outright : RefusedOutright row tag
    · have soft : c.priority ≠ .required := fun hp => h ⟨hp, outright⟩
      rw [if_neg soft] at next
      rw [addRow_of_refusedOutright t _ _ outright, release_nextSymbol, if_neg (by omega)]
      omega
    · have grown := addRow_nextSymbol t _ _ outright
      split at next <;> omega
  generalize t.addRow row tag = a at added hr ⊢
  obtain ⟨refusal | _, u⟩ := a
  · exact added
  · have best := optimise_nextSymbol { u with held := u.held.insert c.id ⟨c, tag⟩ } false
    dsimp only at hr ⊢
    generalize Solver.optimise (K := K) _ false = o at best hr ⊢
    obtain ⟨failure | _, v⟩ := o
    · exact best ▸ added
    · cases hr

/-- A refusal leaves a solver as it was but for mentions, exactly if the constraint contradicts what
is required and all its unknowns are in use. -/
theorem refused_surplus_iff (hc : s.holds c.id = false) {refusal : Refusal}
    (hr : (s.addConstraint c).1 = .error refusal) :
    (∃ E, Surplus E s (s.addConstraint c).2) ↔
      s.Contradicts c ∧ ∀ v ∈ c.mentioned, ∃ σ, s.symbolOf v = some σ := by
  constructor
  · rintro ⟨E, h⟩
    have contradicts : s.Contradicts c := Classical.byContradiction fun hnot => by
      have grown := nextSymbol_lt_of_refused hc hr hnot
      rw [h.nextSymbol] at grown
      exact Nat.lt_irrefl _ grown
    rw [addConstraint_of_contradicts hc contradicts] at h
    exact ⟨contradicts, symbolOf_of_mentionAll_nextSymbol c.mentioned h.nextSymbol⟩
  · rintro ⟨contradicts, used⟩
    rw [addConstraint_of_contradicts hc contradicts]
    exact ⟨_, mentionAll_surplus c.mentioned used⟩

end ViewConstraints.Simplex.Solver

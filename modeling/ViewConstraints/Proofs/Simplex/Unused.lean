import ViewConstraints.Proofs.Simplex.Mentions

/-!
# Unknowns that go out of use

A solver forgets an unknown with the last mention it counts. The mentions of held constraints go
with them, but those of refused additions and of failed removals stay. If none of these was of an
unknown, the mentions counted of it are those of held constraints and no others (`Unpadded`), so
that the unknown is out of use as soon as no held constraint mentions it
(`Unpadded.symbolOf_eq_none`).
-/

namespace ViewConstraints.Simplex.Solver

open Linear

section

variable {K : Type} {s : Solver K} {v : Variable}

/-- The unknown is in use only as long as a mention of it is counted. -/
def Backed (s : Solver K) (v : Variable) : Prop := ∀ σ, s.symbolOf v = some σ → 0 < s.mentionsOf v

/-- An unknown that comes into use does so with a mention. -/
theorem Backed.mentionAll (h : Backed s v) (vs : List Variable) : Backed (s.mentionAll vs) v := by
  intro σ hσ
  rw [mentionsOf_mentionAll]
  by_cases hv : v ∈ vs
  · exact Nat.lt_of_lt_of_le (List.count_pos_iff.2 hv) (Nat.le_add_left _ _)
  · rw [symbolOf_mentionAll_of_notMem hv] at hσ
    exact Nat.lt_of_lt_of_le (h σ hσ) (Nat.le_add_right _ _)

/-- An unknown goes out of use with its last mention. -/
theorem Backed.unmention (h : Backed s v) (w : Variable) : Backed (s.unmention w) v := by
  intro σ hσ
  rw [symbolOf, unmention_get?] at hσ
  rw [mentionsOf, unmention_get?]
  split at hσ
  next hw =>
    rw [if_pos hw]
    cases hx : s.tracked.get? w with
    | none =>
      rw [hx] at hσ
      cases hσ
    | some x =>
      rw [hx, Option.bind_some] at hσ
      rw [Option.bind_some]
      split at hσ
      · cases hσ
      next left =>
        rw [if_neg left]
        exact Nat.pos_of_ne_zero left
  next hw =>
    rw [if_neg hw]
    exact h σ hσ

/-- The same of several mentions that are taken back. -/
theorem Backed.unmentionAll (vs : List Variable) {s : Solver K} (h : Backed s v) :
    Backed (s.unmentionAll vs) v := by
  induction vs generalizing s with
  | nil => exact h
  | cons w vs ih => exact ih (h.unmention w)

/-- Whether a mention stands behind an unknown shows in what is tracked. -/
theorem Backed.of_tracked {t : Solver K} (h : Backed s v) (ht : t.tracked = s.tracked) :
    Backed t v := by
  intro σ hσ
  rw [mentionsOf, ht]
  rw [symbolOf, ht] at hσ
  exact h σ hσ

end

variable {K : Type} [Scalar K] {s : Solver K} {c : Constraint K} {v : Variable}

/-- The mentions counted of an unknown are those of held constraints, and with none of them it is
out of use. -/
structure Unpadded (s : Solver K) (v : Variable) : Prop where
  mentions : s.mentionsOf v ≤ (s.constraints.flatMap Constraint.mentioned).count v
  backed : Backed s v

/-- An unknown that no held constraint mentions is out of use. -/
theorem Unpadded.symbolOf_eq_none (h : Unpadded s v) (hc : ∀ c ∈ s.constraints, v ∉ c.mentioned) :
    s.symbolOf v = none := by
  have unmentioned : v ∉ s.constraints.flatMap Constraint.mentioned := by
    rw [List.mem_flatMap]
    rintro ⟨c, held, hv⟩
    exact hc c held hv
  have none : s.mentionsOf v = 0 := by
    have := h.mentions
    rwa [List.count_eq_zero.2 unmentioned, Nat.le_zero] at this
  cases hσ : s.symbolOf v with
  | none => rfl
  | some σ => exact absurd none (Nat.ne_of_gt (h.backed σ hσ))

/-- A constraint that is taken in brings its mentions, and one that is refused pads those of its own
unknowns only. -/
theorem Unpadded.addConstraint (h : Unpadded s v) (hs : Keyed s)
    (granted : (s.addConstraint c).1 = .ok () ∨ v ∉ c.mentioned) :
    Unpadded (s.addConstraint c).2 v := by
  cases hc : s.holds c.id with
  | true => rwa [addConstraint_of_holds hc]
  | false =>
    have tracked := addConstraint_tracked hc
    have counts : (s.addConstraint c).2.mentionsOf v = s.mentionsOf v + c.mentioned.count v := by
      rw [mentionsOf, tracked]
      exact mentionsOf_mentionAll c.mentioned s v
    refine ⟨?_, (h.backed.mentionAll c.mentioned).of_tracked tracked⟩
    have mentions := h.mentions
    have taken {t : Solver K} (tag : Tag) (ht : t.held = s.held.insert c.id ⟨c, tag⟩) :
        (t.constraints.flatMap Constraint.mentioned).count v =
          c.mentioned.count v + (s.constraints.flatMap Constraint.mentioned).count v :=
      count_mentioned_of_perm (hs.insert tag hc ht).2 v
    have added := addConstraint_added s c
    generalize s.addConstraint c = r at added counts granted ⊢
    obtain ⟨answer, t⟩ := r
    rw [counts]
    cases added with
    | duplicate hd => rw [hc] at hd; cases hd
    | accepted tag _ ht hu =>
      rw [taken tag (by rw [hu.held, ht.held_mentionAll])]
      omega
    | refused _ _ _ _ ht =>
      have unmentioned : v ∉ c.mentioned := granted.resolve_left fun h => by cases h
      rw [constraints_of_held ht.held_mentionAll, List.count_eq_zero.2 unmentioned]
      exact mentions
    | failed tag _ _ ht hu =>
      rw [taken tag (by rw [hu.held, ht.held_mentionAll])]
      omega

/-- A constraint that is dropped takes its mentions with it, unless the solver fails, which pads
those of its own unknowns only. -/
theorem Unpadded.removeConstraint (h : Unpadded s v) (hs : Keyed s)
    (known : ∀ held, s.held.get? c.id = some held → held.constraint = c)
    (granted : (∀ failure, (s.removeConstraint c).1 ≠ .error (.internal failure)) ∨
      v ∉ c.mentioned) : Unpadded (s.removeConstraint c).2 v := by
  have mentions := h.mentions
  have dropped {t : Solver K} (held : Held K) (hheld : s.held.get? c.id = some held)
      (ht : t.held = s.held.erase c.id) : (s.constraints.flatMap Constraint.mentioned).count v =
        c.mentioned.count v + (t.constraints.flatMap Constraint.mentioned).count v :=
    count_mentioned_of_perm (known held hheld ▸ (hs.erase hheld ht).2) v
  have removed := removeConstraint_removed s c
  generalize s.removeConstraint c = r at removed granted ⊢
  obtain ⟨answer, t⟩ := r
  cases removed with
  | unknown _ => exact h
  | @removed t held hheld ht =>
    refine ⟨?_, (h.backed.of_tracked ht.tracked).unmentionAll c.mentioned⟩
    have left := dropped (t := t.unmentionAll c.mentioned) held hheld
      ((unmentionAll_held t _).trans ht.held)
    have counts : (t.unmentionAll c.mentioned).mentionsOf v =
        s.mentionsOf v - c.mentioned.count v := by
      rw [mentionsOf_unmentionAll, ht.mentionsOf]
      rfl
    show (t.unmentionAll c.mentioned).mentionsOf v ≤
      ((t.unmentionAll c.mentioned).constraints.flatMap Constraint.mentioned).count v
    omega
  | failed held failure hheld ht =>
    have unmentioned : v ∉ c.mentioned := granted.resolve_left fun h => h failure rfl
    refine ⟨?_, h.backed.of_tracked ht.tracked⟩
    have left := dropped (t := t) held hheld ht.held
    rw [List.count_eq_zero.2 unmentioned, Nat.zero_add] at left
    exact Nat.le_trans (Nat.le_of_eq (ht.mentionsOf v)) (left ▸ mentions)

/-- A report neither counts mentions nor changes what is held. -/
theorem Unpadded.fetchChanges (h : Unpadded s v) : Unpadded s.fetchChanges.2 v := by
  refine ⟨?_, fun σ hσ => ?_⟩
  · rw [constraints_of_held s.fetchChanges_held, mentionsOf_fetchChanges]
    exact h.mentions
  · rw [mentionsOf_fetchChanges]
    exact h.backed σ (symbolOf_fetchChanges s v ▸ hσ)

end ViewConstraints.Simplex.Solver

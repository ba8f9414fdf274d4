import ViewConstraints.Proofs.OrderedMap
import ViewConstraints.Proofs.Simplex.Books

/-!
# The constraints a solver holds

The held set as a list: an accepted addition adds the constraint to it, a refusal as unsatisfiable
leaves it, and a removal that succeeds takes the constraint out (`addConstraint_outcome`,
`removeConstraint_outcome`). The set is kept under the numbers of its constraints (`Keyed`).
-/

namespace ViewConstraints.Simplex.Solver

open Linear

/-! ## Sets kept by number -/

section

variable {K : Type} {s t : Solver K}

/-- Each held constraint is kept once, under its own number. -/
structure Keyed (s : Solver K) : Prop where
  nodup : s.held.keys.Nodup
  key : ∀ p ∈ s.held.entries, p.2.constraint.id = p.1

/-- Whether constraints are held under their own numbers shows in what is held. -/
theorem Keyed.of_held (hs : Keyed s) (h : t.held = s.held) : Keyed t :=
  ⟨h ▸ hs.nodup, h ▸ hs.key⟩

theorem constraints_of_held (h : t.held = s.held) : t.constraints = s.constraints := by
  rw [constraints, constraints, h]

/-- Mentions of unknowns and turns of the tableau change nothing that is held. -/
theorem SameBooks.held_mentionAll {vs : List Variable}
    (h : SameBooks (s.mentionAll vs) t) : t.held = s.held :=
  h.held.trans (mentionAll_held s vs)

theorem get?_of_holds_eq_false {id : Nat} (h : s.holds id = false) : s.held.get? id = none :=
  Option.not_isSome_iff_eq_none.1 (Bool.eq_false_iff.1 h)

/-- A constraint of the held set is found under its number. -/
theorem Keyed.get?_of_mem (hs : Keyed s) {c : Constraint K} (hc : c ∈ s.constraints) :
    ∃ held, s.held.get? c.id = some held ∧ held.constraint = c := by
  simp only [constraints, OrderedMap.values, List.map_map, List.mem_map] at hc
  obtain ⟨⟨id, held⟩, hp, rfl⟩ := hc
  have hid : held.constraint.id = id := hs.key _ hp
  exact ⟨held, OrderedMap.get?_of_mem_entries hs.nodup (hid ▸ hp), rfl⟩

/-- A number under which nothing is held is the number of no held constraint. -/
theorem holds_eq_false_of_notMem (hs : Keyed s) {id : Nat}
    (h : ∀ c ∈ s.constraints, c.id ≠ id) : s.holds id = false := by
  rw [Bool.eq_false_iff]
  intro hh
  obtain ⟨held, hheld⟩ := Option.isSome_iff_exists.1 hh
  have hp := OrderedMap.mem_entries_of_get? hheld
  exact h held.constraint (List.mem_map_of_mem (List.mem_map_of_mem hp)) (hs.key _ hp)

/-- Taking a new constraint into the set. -/
theorem Keyed.insert (hs : Keyed s) {c : Constraint K} (tag : Tag) (hc : s.holds c.id = false)
    (h : t.held = s.held.insert c.id ⟨c, tag⟩) :
    Keyed t ∧ t.constraints.Perm (c :: s.constraints) := by
  have hnone := get?_of_holds_eq_false hc
  have hp : t.held.entries.Perm ((c.id, ⟨c, tag⟩) :: s.held.entries) :=
    h ▸ OrderedMap.entries_insert_perm hnone
  refine ⟨⟨h ▸ OrderedMap.keys_insert_nodup hs.nodup hnone, ?_⟩, ?_⟩
  · intro p hmem
    rcases List.mem_cons.1 (hp.mem_iff.1 hmem) with rfl | hmem
    · rfl
    · exact hs.key p hmem
  · exact (hp.map Prod.snd).map Held.constraint

/-- Dropping a held constraint from the set. -/
theorem Keyed.erase (hs : Keyed s) {id : Nat} {held : Held K} (hc : s.held.get? id = some held)
    (h : t.held = s.held.erase id) :
    Keyed t ∧ s.constraints.Perm (held.constraint :: t.constraints) := by
  have hp : s.held.entries.Perm ((id, held) :: t.held.entries) :=
    h ▸ OrderedMap.entries_erase_perm hs.nodup hc
  refine ⟨⟨h ▸ OrderedMap.keys_erase_nodup hs.nodup, ?_⟩, ?_⟩
  · intro p hmem
    exact hs.key p (hp.mem_iff.2 (.tail _ hmem))
  · exact (hp.map Prod.snd).map Held.constraint

end

variable {K : Type} [Scalar K] {s : Solver K} {c : Constraint K}

/-! ## Additions -/

/-- An addition keeps the set by number, and brings in at most the constraint added. -/
theorem addConstraint_keyed (hs : Keyed s) :
    Keyed (s.addConstraint c).2 ∧
      ∀ d ∈ (s.addConstraint c).2.constraints, d = c ∨ d ∈ s.constraints := by
  have taken : ∀ {t u : Solver K} (tag : Tag), s.holds c.id = false →
      SameBooks (s.mentionAll c.mentioned) t →
      SameBooks { t with held := t.held.insert c.id ⟨c, tag⟩ } u →
      Keyed u ∧ ∀ d ∈ u.constraints, d = c ∨ d ∈ s.constraints := by
    intro t u tag hc ht hu
    have hheld : u.held = s.held.insert c.id ⟨c, tag⟩ := by rw [hu.held, ht.held_mentionAll]
    obtain ⟨hk, hp⟩ := hs.insert tag hc hheld
    exact ⟨hk, fun d hd => List.mem_cons.1 (hp.mem_iff.1 hd)⟩
  have h := addConstraint_added s c
  generalize s.addConstraint c = r at h ⊢
  obtain ⟨answer, t⟩ := r
  cases h with
  | duplicate => exact ⟨hs, fun _ => .inr⟩
  | accepted tag hc ht hu => exact taken tag hc ht hu
  | refused _ _ _ _ ht =>
    have hheld := ht.held_mentionAll
    exact ⟨hs.of_held hheld, fun d hd => .inr (constraints_of_held hheld ▸ hd)⟩
  | failed tag _ hc ht hu => exact taken tag hc ht hu

/-- A new constraint is accepted into the set, refused without a change to it, or meets a failure of
the tableau. -/
theorem addConstraint_outcome (hs : Keyed s) (hc : s.holds c.id = false) :
    ((s.addConstraint c).1 = .ok () ∧ (s.addConstraint c).2.constraints.Perm (c :: s.constraints)) ∨
    ((s.addConstraint c).1 = .error .unsatisfiable ∧
      (s.addConstraint c).2.constraints = s.constraints) ∨
    ∃ failure, (s.addConstraint c).1 = .error (.internal failure) := by
  have h := addConstraint_added s c
  generalize s.addConstraint c = r at h ⊢
  obtain ⟨answer, t⟩ := r
  cases h with
  | duplicate hd => rw [hc] at hd; cases hd
  | accepted tag _ ht hu =>
    exact .inl ⟨rfl, (hs.insert tag hc (by rw [hu.held, ht.held_mentionAll])).2⟩
  | refused refusal _ hd hu ht =>
    cases refusal with
    | unsatisfiable => exact .inr (.inl ⟨rfl, constraints_of_held ht.held_mentionAll⟩)
    | duplicate => exact absurd rfl hd
    | unknown => exact absurd rfl hu
    | internal failure => exact .inr (.inr ⟨failure, rfl⟩)
  | failed _ failure => exact .inr (.inr ⟨failure, rfl⟩)

/-! ## Removals -/

/-- A removal keeps the set by number and brings in nothing. -/
theorem removeConstraint_keyed (hs : Keyed s) :
    Keyed (s.removeConstraint c).2 ∧
      ∀ d ∈ (s.removeConstraint c).2.constraints, d ∈ s.constraints := by
  have dropped : ∀ {t : Solver K} (held : Held K), s.held.get? c.id = some held →
      t.held = s.held.erase c.id → Keyed t ∧ ∀ d ∈ t.constraints, d ∈ s.constraints := by
    intro t held hc ht
    obtain ⟨hk, hp⟩ := hs.erase hc ht
    exact ⟨hk, fun d hd => hp.mem_iff.2 (.tail _ hd)⟩
  have h := removeConstraint_removed s c
  generalize s.removeConstraint c = r at h ⊢
  obtain ⟨answer, t⟩ := r
  cases h with
  | unknown => exact ⟨hs, fun _ => id⟩
  | removed held hc ht => exact dropped held hc ((unmentionAll_held _ _).trans ht.held)
  | failed held _ hc ht => exact dropped held hc ht.held

/-- A held constraint leaves the set, or meets a failure of the tableau. -/
theorem removeConstraint_outcome (hs : Keyed s) (hc : c ∈ s.constraints) :
    ((s.removeConstraint c).1 = .ok () ∧
      s.constraints.Perm (c :: (s.removeConstraint c).2.constraints)) ∨
    ∃ failure, (s.removeConstraint c).1 = .error (.internal failure) := by
  obtain ⟨held, hheld, heq⟩ := hs.get?_of_mem hc
  have h := removeConstraint_removed s c
  generalize s.removeConstraint c = r at h ⊢
  obtain ⟨answer, t⟩ := r
  cases h with
  | unknown hnone => rw [hheld] at hnone; cases hnone
  | removed held' hheld' ht =>
    have hp := (hs.erase hheld' ((unmentionAll_held _ c.mentioned).trans ht.held)).2
    rw [hheld] at hheld'
    cases hheld'
    exact .inl ⟨rfl, heq ▸ hp⟩
  | failed _ failure => exact .inr ⟨failure, rfl⟩

/-- However a removal ends, nothing is held under the number of the constraint afterwards. -/
theorem removeConstraint_erases (s : Solver K) (c : Constraint K) :
    (s.removeConstraint c).2.held = s.held.erase c.id := by
  have idle (hc : s.held.get? c.id = none) : s.held.erase c.id = s.held := by
    refine congrArg OrderedMap.mk (List.filter_eq_self.2 ?_)
    intro p hp
    refine decide_eq_true ?_
    rintro heq
    exact OrderedMap.notMem_keys_of_get? hc (heq ▸ List.mem_map_of_mem hp)
  have h := removeConstraint_removed s c
  generalize s.removeConstraint c = r at h ⊢
  obtain ⟨answer, t⟩ := r
  cases h with
  | unknown hc => exact (idle hc).symm
  | removed _ _ ht => exact (unmentionAll_held _ _).trans ht.held
  | failed _ _ _ ht => exact ht.held

/-- A removal takes the constraint out of the set and no other, however it ends. -/
theorem constraints_removeConstraint (hs : Keyed s) (c : Constraint K) :
    (s.removeConstraint c).2.constraints = s.constraints.filter fun d => d.id ≠ c.id := by
  rw [constraints, removeConstraint_erases]
  simp only [constraints, OrderedMap.values, OrderedMap.erase, List.map_map, List.filter_map]
  congr 1
  refine List.filter_congr ?_
  intro p hp
  simp only [Function.comp_apply, hs.key p hp]

/-- A removal of a constraint that is not held is refused without effect. -/
theorem removeConstraint_of_notMem (hs : Keyed s) (hc : c ∉ s.constraints)
    (known : ∀ d ∈ s.constraints, c.id = d.id → c = d) :
    s.removeConstraint c = (.error .unknown, s) := by
  have hnone : s.held.get? c.id = none :=
    get?_of_holds_eq_false <| holds_eq_false_of_notMem hs fun d hd heq => hc (known d hd heq.symm ▸ hd)
  rw [removeConstraint, hnone]

end ViewConstraints.Simplex.Solver

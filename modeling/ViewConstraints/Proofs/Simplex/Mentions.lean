import ViewConstraints.Proofs.Simplex.Held
import ViewConstraints.Proofs.Simplex.Tableau

/-!
# Unknowns in use

A solver counts for each unknown the terms that mention it, gives the unknown a symbol with the first
and forgets it after the last. The count is never less than what the held constraints come to
(`Counted`), so an unknown of a held constraint is in use. It may be more: refused additions leave
their mentions, and a surplus `E` of such mentions lasts through all requests.

A symbol is never given out twice, so that an unknown which has the same symbol at two moments has
had it all the time between (`Later`).
-/

namespace ViewConstraints.Simplex.Solver

open Linear

section

variable {K : Type} {s t u : Solver K}

/-- The mentions counted of an unknown, none if it is not in use. -/
def mentionsOf (s : Solver K) (v : Variable) : Nat :=
  ((s.tracked.get? v).map Tracked.mentions).getD 0

/-- The symbol of an unknown, if it is in use. -/
def symbolOf (s : Solver K) (v : Variable) : Option Symbol :=
  (s.tracked.get? v).map Tracked.symbol

/-- The value last reported of an unknown since it came into use, if any was. -/
def reportedOf (s : Solver K) (v : Variable) : Option K :=
  (s.tracked.get? v).bind Tracked.reported

/-- Work on the tableau alone changes no count. -/
theorem SameBooks.mentionsOf (h : SameBooks s t) (v : Variable) :
    t.mentionsOf v = s.mentionsOf v := by
  rw [Solver.mentionsOf, Solver.mentionsOf, h.tracked]

/-- An unknown that was reported has a symbol. -/
theorem exists_symbolOf_of_reportedOf {v : Variable} {r : K} (h : s.reportedOf v = some r) :
    ∃ σ, s.symbolOf v = some σ := by
  obtain ⟨x, hx, -⟩ := Option.bind_eq_some_iff.1 h
  exact ⟨x.symbol, by rw [Solver.symbolOf, hx]; rfl⟩

/-- An unknown with a mention has a symbol. -/
theorem exists_symbolOf {v : Variable} (h : 0 < s.mentionsOf v) : ∃ σ, s.symbolOf v = some σ := by
  unfold Solver.mentionsOf at h
  cases hv : s.tracked.get? v with
  | none => simp [hv] at h
  | some x => exact ⟨x.symbol, by rw [Solver.symbolOf, hv]; rfl⟩

/-! ## Mentions -/

/-- What is tracked after a mention: the unknown has one mention more, and if it had none before it
gets the next symbol and nothing counts as reported of it. -/
theorem mention_get? (s : Solver K) (v w : Variable) :
    (s.mention v).2.tracked.get? w = if w = v then
      some ((s.tracked.get? v).elim ⟨⟨s.nextSymbol, .external⟩, 1, none⟩
        fun x => { x with mentions := x.mentions + 1 })
    else s.tracked.get? w := by
  unfold mention
  split
  next x hx => rw [OrderedMap.get?_insert, hx, Option.elim_some]
  next hx =>
    simp only [fresh]
    rw [OrderedMap.get?_insert, hx, Option.elim_none]

/-- A mention of an unknown raises its count by one, and no other. -/
theorem mentionsOf_mention (s : Solver K) (v w : Variable) :
    (s.mention v).2.mentionsOf w = s.mentionsOf w + if w = v then 1 else 0 := by
  rw [Solver.mentionsOf, Solver.mentionsOf, mention_get?]
  split
  next hw =>
    rw [hw]
    cases s.tracked.get? v <;> rfl
  next => rfl

/-- An unknown that is mentioned keeps its symbol or gets the next one, and all others keep theirs. -/
theorem symbolOf_mention (s : Solver K) (v w : Variable) :
    (s.mention v).2.symbolOf w =
      if w = v then some ((s.symbolOf v).getD ⟨s.nextSymbol, .external⟩) else s.symbolOf w := by
  rw [Solver.symbolOf, mention_get?]
  split
  next hw =>
    unfold Solver.symbolOf
    cases s.tracked.get? v <;> rfl
  next => rfl

/-- A mention reports nothing: what was reported of the unknown stays, and of a new one
nothing was. -/
theorem reportedOf_mention (s : Solver K) (v w : Variable) :
    (s.mention v).2.reportedOf w = s.reportedOf w := by
  rw [Solver.reportedOf, Solver.reportedOf, mention_get?]
  split
  next hw =>
    rw [hw]
    cases s.tracked.get? v <;> rfl
  next => rfl

/-- A mention makes a symbol if the unknown had none. -/
theorem mention_nextSymbol (s : Solver K) (v : Variable) :
    (s.mention v).2.nextSymbol = s.nextSymbol + if s.symbolOf v = none then 1 else 0 := by
  rw [mention, Solver.symbolOf]
  split <;> rename_i hx <;> rw [hx] <;> rfl

/-- Several mentions raise the count of an unknown by the number of times it is among them. -/
theorem mentionsOf_mentionAll (vs : List Variable) (s : Solver K) (w : Variable) :
    (s.mentionAll vs).mentionsOf w = s.mentionsOf w + vs.count w := by
  induction vs generalizing s with
  | nil => rfl
  | cons v vs ih =>
    rw [mentionAll_cons, ih, mentionsOf_mention, List.count_cons]
    simp only [beq_iff_eq, eq_comm (a := v)]
    omega

/-- Several mentions report nothing. -/
theorem reportedOf_mentionAll (vs : List Variable) (s : Solver K) (w : Variable) :
    (s.mentionAll vs).reportedOf w = s.reportedOf w := by
  induction vs generalizing s with
  | nil => rfl
  | cons v vs ih => exact (ih _).trans (reportedOf_mention s v w)

/-- What is tracked after a mention is taken back: the unknown has one mention less, and with the last
it is forgotten. -/
theorem unmention_get? (s : Solver K) (v w : Variable) :
    (s.unmention v).tracked.get? w = if w = v then
      (s.tracked.get? v).bind fun x =>
        if x.mentions - 1 = 0 then none else some { x with mentions := x.mentions - 1 }
    else s.tracked.get? w := by
  unfold unmention
  split
  next hx =>
    split
    next hw => rw [hw, hx]; rfl
    next => rfl
  next x hx =>
    rw [hx, Option.bind_some]
    split
    next h0 => rw [OrderedMap.get?_erase]
    next h0 => rw [OrderedMap.get?_insert]

/-- Taking back a mention lowers the count of the unknown by one, and no other. -/
theorem mentionsOf_unmention (s : Solver K) (v w : Variable) :
    (s.unmention v).mentionsOf w = s.mentionsOf w - if w = v then 1 else 0 := by
  rw [Solver.mentionsOf, Solver.mentionsOf, unmention_get?]
  split
  next hw =>
    rw [hw]
    cases s.tracked.get? v with
    | none => rfl
    | some x =>
      rw [Option.bind_some]
      split
      next h0 => exact h0.symm
      next => rfl
  next => rfl

/-- Taking back a mention gives no symbol to an unknown, so one that has a symbol had it before. -/
theorem symbolOf_of_unmention {v w : Variable} {σ : Symbol}
    (h : (s.unmention v).symbolOf w = some σ) : s.symbolOf w = some σ := by
  rw [Solver.symbolOf, unmention_get?] at h
  split at h
  next hw =>
    rw [Solver.symbolOf, hw]
    cases hx : s.tracked.get? v with
    | none => simp [hx] at h
    | some x =>
      rw [hx, Option.bind_some] at h
      split at h
      · cases h
      · exact h
  next => exact h

/-- What was reported of an unknown is kept while the unknown stays in use. -/
theorem reportedOf_unmention {v w : Variable} {σ : Symbol}
    (h : (s.unmention v).symbolOf w = some σ) : (s.unmention v).reportedOf w = s.reportedOf w := by
  rw [Solver.symbolOf, unmention_get?] at h
  rw [Solver.reportedOf, Solver.reportedOf, unmention_get?]
  split at h
  next hw =>
    subst hw
    rw [if_pos rfl]
    cases hx : s.tracked.get? w with
    | none => rfl
    | some x =>
      rw [hx, Option.bind_some] at h
      rw [Option.bind_some]
      split at h
      · cases h
      next hmentions =>
        rw [if_neg hmentions]
        rfl
  next hw => rw [if_neg hw]

/-- A symbol of an unknown is not given back with its last mention. -/
theorem unmention_nextSymbol (s : Solver K) (v : Variable) :
    (s.unmention v).nextSymbol = s.nextSymbol := by
  unfold unmention
  split
  · rfl
  · split <;> rfl

/-- Taking back several mentions lowers the count of an unknown by the number of times it is
among them. -/
theorem mentionsOf_unmentionAll (vs : List Variable) (s : Solver K) (w : Variable) :
    (s.unmentionAll vs).mentionsOf w = s.mentionsOf w - vs.count w := by
  induction vs generalizing s with
  | nil => rfl
  | cons v vs ih =>
    rw [unmentionAll_cons, ih, mentionsOf_unmention, List.count_cons]
    simp only [beq_iff_eq, eq_comm (a := v)]
    omega

/-- Taking back several mentions gives no symbol to an unknown. -/
theorem symbolOf_of_unmentionAll (vs : List Variable) {s : Solver K} {w : Variable} {σ : Symbol}
    (h : (s.unmentionAll vs).symbolOf w = some σ) : s.symbolOf w = some σ := by
  induction vs generalizing s with
  | nil => exact h
  | cons v vs ih => exact symbolOf_of_unmention (ih h)

/-- What was reported of an unknown is kept when mentions are taken back, if the unknown is in use
after all of them. -/
theorem reportedOf_unmentionAll (vs : List Variable) {s : Solver K} {w : Variable} {σ : Symbol}
    (h : (s.unmentionAll vs).symbolOf w = some σ) :
    (s.unmentionAll vs).reportedOf w = s.reportedOf w := by
  induction vs generalizing s with
  | nil => rfl
  | cons v vs ih =>
    exact (ih h).trans (reportedOf_unmention (symbolOf_of_unmentionAll vs h))

/-- The symbols of unknowns that go out of use are not given back. -/
theorem unmentionAll_nextSymbol (vs : List Variable) (s : Solver K) :
    (s.unmentionAll vs).nextSymbol = s.nextSymbol := by
  induction vs generalizing s with
  | nil => rfl
  | cons v vs ih => exact (ih _).trans (unmention_nextSymbol s v)

/-! ## Symbols over time -/

/-- `t` comes after `s`: a symbol that an unknown has in `t` is the one it had in `s`, or was made
after `s`. -/
structure Later (s t : Solver K) : Prop where
  next : s.nextSymbol ≤ t.nextSymbol
  symbols : ∀ v σ, t.symbolOf v = some σ →
    s.symbolOf v = some σ ∨ s.nextSymbol ≤ σ.id ∧ σ.id < t.nextSymbol

namespace Later

theorem refl (s : Solver K) : Later s s := ⟨Nat.le_refl _, fun _ _ => .inl⟩

/-- What comes after a later solver is later still: the symbols made in between have numbers that lie
in between. -/
theorem trans (h : Later s t) (h' : Later t u) : Later s u where
  next := Nat.le_trans h.next h'.next
  symbols v σ hσ := by
    rcases h'.symbols v σ hσ with hσ | ⟨hle, hlt⟩
    · exact (h.symbols v σ hσ).imp_right fun ⟨hle, hlt⟩ => ⟨hle, Nat.lt_of_lt_of_le hlt h'.next⟩
    · exact .inr ⟨Nat.le_trans h.next hle, hlt⟩

/-- A step after which the unknowns in use have the symbols they had. -/
theorem of_symbols (hn : s.nextSymbol ≤ t.nextSymbol)
    (h : ∀ v σ, t.symbolOf v = some σ → s.symbolOf v = some σ) : Later s t :=
  ⟨hn, fun v σ hσ => .inl (h v σ hσ)⟩

/-- An unknown that has a symbol before and after has it in between. -/
theorem between (h : Later s t) (h' : Later t u) {v : Variable} {σ : Symbol}
    (hσ : σ.id < s.nextSymbol) (hu : u.symbolOf v = some σ) : t.symbolOf v = some σ := by
  rcases h'.symbols v σ hu with ht | ⟨hle, -⟩
  · exact ht
  · exact absurd (Nat.le_trans h.next hle) (Nat.not_le.2 hσ)

end Later

/-- A mention gives an unknown the symbol it has or one that is just made. -/
theorem mention_later (s : Solver K) (v : Variable) : Later s (s.mention v).2 := by
  refine ⟨?_, ?_⟩
  · rw [mention_nextSymbol]
    exact Nat.le_add_right _ _
  · intro w σ hσ
    rw [symbolOf_mention] at hσ
    split at hσ
    next hw =>
      cases hs : s.symbolOf v with
      | some τ =>
        rw [hs, Option.getD_some] at hσ
        exact .inl (hw ▸ hs.trans hσ)
      | none =>
        rw [hs, Option.getD_none] at hσ
        cases hσ
        rw [mention_nextSymbol, hs, if_pos rfl]
        exact .inr ⟨Nat.le_refl _, Nat.lt_succ_self _⟩
    next => exact .inl hσ

/-- Several mentions give unknowns the symbols they have or ones that are just made. -/
theorem mentionAll_later (vs : List Variable) (s : Solver K) : Later s (s.mentionAll vs) := by
  induction vs generalizing s with
  | nil => exact .refl s
  | cons v vs ih => exact (mention_later s v).trans (ih _)

/-- An unknown in use keeps its symbol when others are mentioned. -/
theorem symbolOf_mentionAll (vs : List Variable) {s : Solver K} {w : Variable} {σ : Symbol}
    (h : s.symbolOf w = some σ) : (s.mentionAll vs).symbolOf w = some σ := by
  induction vs generalizing s with
  | nil => exact h
  | cons v vs ih =>
    refine ih ?_
    rw [symbolOf_mention]
    split
    next hw => rw [← hw, h]; rfl
    next => exact h

/-- Only the unknowns that are mentioned come into use. -/
theorem symbolOf_mentionAll_of_notMem {vs : List Variable} {s : Solver K} {w : Variable}
    (h : w ∉ vs) : (s.mentionAll vs).symbolOf w = s.symbolOf w := by
  induction vs generalizing s with
  | nil => rfl
  | cons v vs ih =>
    refine (ih (List.not_mem_of_not_mem_cons h)).trans ?_
    rw [symbolOf_mention, if_neg (List.ne_of_not_mem_cons h)]

end

variable {K : Type} [Scalar K] {s : Solver K} {c : Constraint K}

/-! ## Additions and removals -/

/-- A row brings a marker, and a second symbol if its constraint may be missed. -/
theorem rowOf_symbols (s : Solver K) (c : Constraint K) :
    (s.rowOf c).2.1.marker.id = (s.mentionAll c.mentioned).nextSymbol ∧
      (s.rowOf c).2.2.nextSymbol = (s.mentionAll c.mentioned).nextSymbol +
        if c.priority = .required then 1 else 2 := by
  have h := foldl_addTerm_snd c.expression.terms (⟨c.expression.constant, ∅⟩, s)
  rw [rowOf, Constraint.mentioned, ← h]
  cases c.relation <;> cases c.priority <;> exact ⟨rfl, rfl⟩

/-- An addition gives back no symbol but the last of its own. -/
theorem addConstraint_nextSymbol (hc : s.holds c.id = false) :
    (s.mentionAll c.mentioned).nextSymbol ≤ (s.addConstraint c).2.nextSymbol := by
  rw [addConstraint, if_neg (by simp [hc])]
  obtain ⟨marker, next⟩ := rowOf_symbols s c
  have mentioned : (s.mentionAll c.mentioned).nextSymbol ≤ (s.rowOf c).2.2.nextSymbol :=
    next ▸ Nat.le_add_right _ _
  generalize s.rowOf c = r at marker mentioned ⊢
  obtain ⟨row, tag, t⟩ := r
  dsimp only at marker mentioned ⊢
  have added : (s.mentionAll c.mentioned).nextSymbol ≤ (t.addRow row tag).2.nextSymbol := by
    by_cases outright : RefusedOutright row tag
    · rw [addRow_of_refusedOutright t _ _ outright, release_nextSymbol, marker]
      split
      · exact Nat.le_refl _
      · exact mentioned
    · exact Nat.le_trans mentioned (addRow_nextSymbol t _ _ outright)
  generalize t.addRow row tag = a at added ⊢
  obtain ⟨refusal | _, u⟩ := a
  · exact added
  · have best := optimise_nextSymbol { u with held := u.held.insert c.id ⟨c, tag⟩ } false
    dsimp only
    generalize Solver.optimise (K := K) _ false = o at best ⊢
    obtain ⟨failure | _, v⟩ := o <;> exact best ▸ added

/-- A removal neither makes a symbol nor gives one back. -/
theorem removeConstraint_nextSymbol (s : Solver K) (c : Constraint K) :
    (s.removeConstraint c).2.nextSymbol = s.nextSymbol := by
  unfold removeConstraint
  split
  · rfl
  next held _ =>
    have dropped := (dropMarker_nextSymbol
      (removeCost { s with held := s.held.erase c.id } held.tag c.priority) held.tag.marker).trans
      (removeCost_nextSymbol _ _ _)
    dsimp only
    generalize Solver.dropMarker (K := K) _ held.tag.marker = d at dropped ⊢
    obtain ⟨failure | _, t⟩ := d
    · exact dropped
    · have best := (optimise_nextSymbol t false).trans dropped
      dsimp only
      generalize t.optimise false = o at best ⊢
      obtain ⟨failure | _, u⟩ := o
      · exact best
      · have given := (unmentionAll_nextSymbol c.mentioned u).trans best
        rwa [unmentionAll, Constraint.mentioned, List.foldl_map] at given

/-- A constraint whose number is taken is refused and leaves the solver as it was. -/
theorem addConstraint_of_holds (hc : s.holds c.id = true) :
    s.addConstraint c = (.error .duplicate, s) := by
  rw [addConstraint, if_pos hc]

/-- An addition mentions the unknowns of the constraint, whatever comes of it. -/
theorem addConstraint_tracked (hc : s.holds c.id = false) :
    (s.addConstraint c).2.tracked = (s.mentionAll c.mentioned).tracked := by
  have h := addConstraint_added s c
  generalize s.addConstraint c = r at h ⊢
  obtain ⟨answer, t⟩ := r
  cases h with
  | duplicate hd => rw [hc] at hd; cases hd
  | accepted _ _ ht hu => exact hu.tracked.trans ht.tracked
  | refused _ _ _ _ ht => exact ht.tracked
  | failed _ _ _ ht hu => exact hu.tracked.trans ht.tracked

/-- An addition gives no unknown a symbol that was made before, whatever comes of it: all symbols it
gives back are markers and errors. -/
theorem addConstraint_later (s : Solver K) (c : Constraint K) : Later s (s.addConstraint c).2 := by
  cases hc : s.holds c.id with
  | true => rw [addConstraint_of_holds hc]; exact .refl s
  | false =>
    refine (mentionAll_later c.mentioned s).trans (.of_symbols (addConstraint_nextSymbol hc) ?_)
    intro v σ hσ
    rwa [symbolOf, addConstraint_tracked hc] at hσ

/-- An unknown in use keeps its symbol through an addition. -/
theorem symbolOf_addConstraint {v : Variable} {σ : Symbol} (h : s.symbolOf v = some σ)
    (c : Constraint K) : (s.addConstraint c).2.symbolOf v = some σ := by
  cases hc : s.holds c.id with
  | true => rwa [addConstraint_of_holds hc]
  | false =>
    rw [symbolOf, addConstraint_tracked hc]
    exact symbolOf_mentionAll c.mentioned h

/-- An addition leaves alone what its constraint does not mention. -/
theorem symbolOf_addConstraint_of_notMem {v : Variable} (h : v ∉ c.mentioned) :
    (s.addConstraint c).2.symbolOf v = s.symbolOf v := by
  cases hc : s.holds c.id with
  | true => rw [addConstraint_of_holds hc]
  | false =>
    rw [symbolOf, addConstraint_tracked hc]
    exact symbolOf_mentionAll_of_notMem h

/-- A removal takes mentions back, if it does not fail. -/
theorem removeConstraint_tracked (s : Solver K) (c : Constraint K) :
    (s.removeConstraint c).2.tracked = s.tracked ∨
      ∃ t : Solver K, t.tracked = s.tracked ∧
        (s.removeConstraint c).2 = t.unmentionAll c.mentioned := by
  have h := removeConstraint_removed s c
  generalize s.removeConstraint c = r at h ⊢
  obtain ⟨answer, t⟩ := r
  cases h with
  | unknown _ => exact .inl rfl
  | removed _ _ ht => exact .inr ⟨_, ht.tracked, rfl⟩
  | failed _ _ _ ht => exact .inl ht.tracked

/-- A removal gives no symbols out. -/
theorem symbolOf_of_removeConstraint {v : Variable} {σ : Symbol}
    (h : (s.removeConstraint c).2.symbolOf v = some σ) : s.symbolOf v = some σ := by
  rcases removeConstraint_tracked s c with ht | ⟨t, ht, heq⟩
  · rwa [symbolOf, ht] at h
  · rw [heq] at h
    have := symbolOf_of_unmentionAll c.mentioned h
    rwa [symbolOf, ht] at this

/-- A removal gives no symbols to unknowns and makes none. -/
theorem removeConstraint_later (s : Solver K) (c : Constraint K) :
    Later s (s.removeConstraint c).2 :=
  .of_symbols (Nat.le_of_eq (removeConstraint_nextSymbol s c).symm) fun _ _ =>
    symbolOf_of_removeConstraint

/-- An addition reports nothing. -/
theorem reportedOf_addConstraint (s : Solver K) (c : Constraint K) (v : Variable) :
    (s.addConstraint c).2.reportedOf v = s.reportedOf v := by
  cases hc : s.holds c.id with
  | true => rw [addConstraint_of_holds hc]
  | false =>
    rw [reportedOf, addConstraint_tracked hc]
    exact reportedOf_mentionAll c.mentioned s v

/-- A removal reports nothing. -/
theorem reportedOf_removeConstraint {v : Variable} {σ : Symbol}
    (h : (s.removeConstraint c).2.symbolOf v = some σ) :
    (s.removeConstraint c).2.reportedOf v = s.reportedOf v := by
  rcases removeConstraint_tracked s c with ht | ⟨t, ht, heq⟩
  · rw [reportedOf, reportedOf, ht]
  · rw [heq] at h ⊢
    rw [reportedOf_unmentionAll _ h, reportedOf, reportedOf, ht]

/-- What is reported of an unknown after a removal was reported before it. -/
theorem reportedOf_of_removeConstraint {v : Variable} {r : K}
    (h : (s.removeConstraint c).2.reportedOf v = some r) : s.reportedOf v = some r := by
  obtain ⟨σ, hσ⟩ := exists_symbolOf_of_reportedOf h
  exact (reportedOf_removeConstraint hσ).symm.trans h

/-! ## Reports -/

/-- A report makes no symbol. -/
theorem fetchChanges_nextSymbol (s : Solver K) : s.fetchChanges.2.nextSymbol = s.nextSymbol := by
  refine fetchChanges_keeps ?_ (fun _ _ _ => rfl) s
  intro r v
  rcases reportVariable_cases r v with ⟨heq, -⟩ | ⟨x, -, heq⟩ <;> rw [heq]

/-- A report leaves each unknown its symbol, since it changes no more than what was reported. -/
theorem symbolOf_fetchChanges (s : Solver K) (w : Variable) :
    s.fetchChanges.2.symbolOf w = s.symbolOf w := by
  refine fetchChanges_keeps (f := fun s => s.symbolOf w) ?_ (fun _ _ _ => rfl) s
  intro r v
  rcases reportVariable_cases r v with ⟨heq, -⟩ | ⟨x, hx, heq⟩ <;> rw [heq]
  rw [symbolOf, OrderedMap.get?_insert]
  split
  next hw => rw [symbolOf, hw, hx]; rfl
  next => rfl

/-- A report leaves each count as it is. -/
theorem mentionsOf_fetchChanges (s : Solver K) (w : Variable) :
    s.fetchChanges.2.mentionsOf w = s.mentionsOf w := by
  refine fetchChanges_keeps (f := fun s => s.mentionsOf w) ?_ (fun _ _ _ => rfl) s
  intro r v
  rcases reportVariable_cases r v with ⟨heq, -⟩ | ⟨x, hx, heq⟩ <;> rw [heq]
  rw [mentionsOf, OrderedMap.get?_insert]
  split
  next hw => rw [mentionsOf, hw, hx]; rfl
  next => rfl

/-- A report comes after what was before, with the same symbols. -/
theorem fetchChanges_later (s : Solver K) : Later s s.fetchChanges.2 :=
  .of_symbols (Nat.le_of_eq (fetchChanges_nextSymbol s).symm) fun v _ hσ =>
    symbolOf_fetchChanges s v ▸ hσ

/-! ## Counts -/

/-- The mentions counted of each unknown are at least those of the held constraints and a surplus
`E`. -/
def Counted (E : Variable → Nat) (s : Solver K) : Prop :=
  ∀ v, E v + (s.constraints.flatMap Constraint.mentioned).count v ≤ s.mentionsOf v

variable {E : Variable → Nat}

/-- An unknown of a held constraint is in use. -/
theorem Counted.exists_symbolOf (h : Counted E s) (hc : c ∈ s.constraints) {v : Variable}
    (hv : v ∈ c.mentioned) : ∃ σ, s.symbolOf v = some σ := by
  have hmem : v ∈ s.constraints.flatMap Constraint.mentioned := List.mem_flatMap.2 ⟨c, hc, hv⟩
  have := h v
  have := List.count_pos_iff.2 hmem
  exact Solver.exists_symbolOf (by omega)

/-- Mentions that belong to no held constraint are a surplus. -/
theorem Counted.mentionAll (h : Counted E s) (vs : List Variable) :
    Counted (fun v => E v + vs.count v) (s.mentionAll vs) := by
  intro v
  have := h v
  rw [constraints_of_held (mentionAll_held s vs), mentionsOf_mentionAll]
  dsimp only
  omega

/-- The mentions of the constraints in force are those of one of them and of all others. -/
theorem count_mentioned_of_perm {cs ds : List (Constraint K)} (h : cs.Perm (c :: ds))
    (v : Variable) : (cs.flatMap Constraint.mentioned).count v =
      c.mentioned.count v + (ds.flatMap Constraint.mentioned).count v := by
  rw [(h.flatMap_right Constraint.mentioned).count_eq, List.flatMap_cons, List.count_append]

/-- An addition keeps the surplus: it counts the mentions of its constraint even if this is refused,
and then they belong to no held constraint. -/
theorem Counted.addConstraint (h : Counted E s) (hs : Keyed s) : Counted E (s.addConstraint c).2 := by
  cases hc : s.holds c.id with
  | true => rwa [addConstraint_of_holds hc]
  | false =>
    intro v
    have counts : (s.addConstraint c).2.mentionsOf v = s.mentionsOf v + c.mentioned.count v := by
      rw [mentionsOf, addConstraint_tracked hc]
      exact mentionsOf_mentionAll c.mentioned s v
    have grown : ((s.addConstraint c).2.constraints.flatMap Constraint.mentioned).count v ≤
        c.mentioned.count v + (s.constraints.flatMap Constraint.mentioned).count v := by
      have taken : ∀ {t : Solver K} (tag : Tag), t.held = s.held.insert c.id ⟨c, tag⟩ →
          (t.constraints.flatMap Constraint.mentioned).count v ≤
            c.mentioned.count v + (s.constraints.flatMap Constraint.mentioned).count v := by
        intro t tag ht
        exact Nat.le_of_eq (count_mentioned_of_perm (hs.insert tag hc ht).2 v)
      have added := addConstraint_added s c
      generalize s.addConstraint c = r at added ⊢
      obtain ⟨answer, t⟩ := r
      cases added with
      | duplicate hd => rw [hc] at hd; cases hd
      | accepted tag _ ht hu => exact taken tag (by rw [hu.held, ht.held_mentionAll])
      | refused _ _ _ _ ht =>
        rw [constraints_of_held ht.held_mentionAll]
        exact Nat.le_add_left _ _
      | failed tag _ _ ht hu => exact taken tag (by rw [hu.held, ht.held_mentionAll])
    have := h v
    omega

/-- A removal takes back no more mentions than the constraint it drops came to. If it fails on the way
it takes back none, while the constraint is dropped all the same. -/
theorem Counted.removeConstraint (h : Counted E s) (hs : Keyed s)
    (hc : ∀ held, s.held.get? c.id = some held → held.constraint = c) :
    Counted E (s.removeConstraint c).2 := by
  have dropped : ∀ {t : Solver K} (held : Held K), s.held.get? c.id = some held →
      t.held = s.held.erase c.id → ∀ v, (s.constraints.flatMap Constraint.mentioned).count v =
        c.mentioned.count v + (t.constraints.flatMap Constraint.mentioned).count v := by
    intro t held hheld ht v
    exact count_mentioned_of_perm (hc held hheld ▸ (hs.erase hheld ht).2) v
  have removed := removeConstraint_removed s c
  generalize s.removeConstraint c = r at removed ⊢
  obtain ⟨answer, t⟩ := r
  cases removed with
  | unknown _ => exact h
  | @removed t held hheld ht =>
    intro v
    have counts : (t.unmentionAll c.mentioned).mentionsOf v =
        s.mentionsOf v - c.mentioned.count v := by
      rw [mentionsOf_unmentionAll, ht.mentionsOf]
      rfl
    have := dropped (t := t.unmentionAll c.mentioned) held hheld
      ((unmentionAll_held t _).trans ht.held) v
    have := h v
    show E v + ((t.unmentionAll c.mentioned).constraints.flatMap Constraint.mentioned).count v ≤
      (t.unmentionAll c.mentioned).mentionsOf v
    omega
  | failed held _ hheld ht =>
    intro v
    have counts : t.mentionsOf v = s.mentionsOf v := ht.mentionsOf v
    have := dropped (t := t) held hheld ht.held v
    have := h v
    show E v + (t.constraints.flatMap Constraint.mentioned).count v ≤ t.mentionsOf v
    omega

/-- A report keeps the surplus, as it changes neither the counts nor what is held. -/
theorem Counted.fetchChanges (h : Counted E s) : Counted E s.fetchChanges.2 := by
  intro v
  rw [constraints_of_held s.fetchChanges_held, mentionsOf_fetchChanges]
  exact h v

end ViewConstraints.Simplex.Solver

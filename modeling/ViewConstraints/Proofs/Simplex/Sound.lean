import ViewConstraints.Proofs.Simplex.Reports

/-!
# What is known of an unknown is right or on record

`Sound` joins what the parts of a solver need of each other: the tableau is coherent, every tracked
unknown has a symbol of its own, the symbols of held constraints are not those of unknowns, and the
value last reported for an unknown agrees with its value unless the unknown is on record as changed.
A solver without constraints is sound, and additions, removals and reports keep it so whether they
are accepted, refused or fail (`addConstraint_sound`, `removeConstraint_sound`). After a report
nothing is left on record (`fetchChanges_agree`).
-/

namespace ViewConstraints.Simplex.Solver

open Linear

section

variable {K : Type} {s : Solver K}

/-- A symbol with a number not yet given out is not basic. -/
theorem Coherent.notBasic (h : Coherent s) {σ : Symbol} (hσ : s.nextSymbol ≤ σ.id) :
    s.rows.get? σ = none := by
  cases hr : s.rows.get? σ with
  | none => rfl
  | some r => exact absurd (h.made σ r hr) (Nat.not_lt.2 hσ)

/-- A symbol that is not in use is still not in use when another has been given out. -/
theorem Free.fresh {σ : Symbol} (h : s.Free σ) (kind : SymbolKind) : (s.fresh kind).2.Free σ :=
  ⟨h.notBasic, Nat.lt_succ_of_lt h.made⟩

end

variable {K : Type} [Scalar K]

/-- The parts of a solver agree with each other. -/
structure Sound (s : Solver K) : Prop where
  coherent : Coherent s
  /-- An unknown is found by its symbol. -/
  indexed : ∀ v t, s.tracked.get? v = some t → s.variableOf.get? t.symbol = some v ∧
    t.symbol.isExternal = true ∧ t.symbol.id < s.nextSymbol
  tagged : ∀ id held, s.held.get? id = some held → held.tag.marker.isExternal = false ∧
    held.tag.marker.id < s.nextSymbol ∧
    ∀ σ, held.tag.other = some σ → σ.id < s.nextSymbol
  /-- An unknown that is not on record has the value last reported, or zero if there is none. -/
  inSync : ∀ v t, s.tracked.get? v = some t →
    v ∈ s.pending ∨ Agree (t.reported.getD 0.0) (s.valueOf t.symbol)

/-- A row with the symbols of its constraint, ready to be added. -/
structure Ready (row : Row K) (tag : Tag) (s : Solver K) : Prop where
  sound : Sound s
  row : ∀ σ, row.Has σ → s.Free σ
  marker : s.Free tag.marker
  markerKind : tag.marker.isExternal = false
  other : ∀ σ, tag.other = some σ → s.Free σ
  /-- The marker may be given back if the row is not added. -/
  released : Sound (s.release tag.marker)

/-- A solver without constraints is sound: it has no rows and tracks no unknown. -/
theorem sound_empty : Sound (empty : Solver K) := by
  refine ⟨⟨⟨?_, ?_, ?_⟩, ?_⟩, ?_, ?_, ?_⟩
  · exact fun _ _ h => nomatch h
  · exact fun _ h => absurd rfl h
  · exact fun _ h => nomatch h
  · exact fun _ _ h => nomatch h
  · exact fun _ _ h => nomatch h
  · exact fun _ _ h => nomatch h
  · exact fun _ _ h => nomatch h

section

variable {s t : Solver K}

/-- A watched step that leaves the books alone. -/
theorem Sound.step [LawfulScalar K] (h : Sound s) (hw : Watched s t) (hb : SameBooks s t)
    (hc : Coherent t) (hn : s.nextSymbol ≤ t.nextSymbol) : Sound t where
  coherent := hc
  indexed v x hx := by
    obtain ⟨hv, he, hi⟩ := h.indexed v x (hb.tracked ▸ hx)
    exact ⟨hb.variableOf ▸ hv, he, Nat.lt_of_lt_of_le hi hn⟩
  tagged id held hid := by
    obtain ⟨hm, hi, ho⟩ := h.tagged id held (hb.held ▸ hid)
    exact ⟨hm, Nat.lt_of_lt_of_le hi hn, fun σ hσ => Nat.lt_of_lt_of_le (ho σ hσ) hn⟩
  inSync v x hx := by
    obtain ⟨hv, he, -⟩ := h.indexed v x (hb.tracked ▸ hx)
    rcases h.inSync v x (hb.tracked ▸ hx) with hp | hp
    · exact .inl (hw.pending v hp)
    · exact (hw.changed x.symbol v he hv).imp_right fun ha => hp.trans ha.symm

/-- A turn leaves the books alone, or only changes what is held. -/
theorem Turn.books {m : Symbol} (h : Turn m s t) : SameBooks s t ∨
    ∃ held, t = { s with held } ∧ ∀ id entry, held.get? id = some entry →
      entry.tag.marker.isExternal = false ∧ entry.tag.marker.id < s.nextSymbol ∧
        ∀ σ, entry.tag.other = some σ → σ.id < s.nextSymbol := by
  cases h with
  | install _ _ _ => exact .inl (install_books ..)
  | erase _ | forget _ | start _ | stop | cost _ => exact .inl ⟨rfl, rfl, rfl⟩
  | hold tagged => exact .inr ⟨_, rfl, tagged⟩
  | @leave leaving row _ _ _ =>
    have noted := noteLeaving_books s leaving row
    have left : SameBooks s { s.noteLeaving leaving row with
        rows := (s.noteLeaving leaving row).rows.erase leaving } :=
      ⟨noted.held, noted.tracked, noted.variableOf⟩
    exact .inl (left.trans (substitute_books ..))

/-- One turn of the tableau rewrites rows by equal rows and puts every unknown whose value it may
change on record. -/
theorem Sound.turn [LawfulScalar K] {m : Symbol} (hs : Sound s) (h : Turn m s t) : Sound t := by
  rcases h.books with books | ⟨held, rfl, tagged⟩
  · exact hs.step h.watched books (h.coherent hs.coherent) h.next
  · exact ⟨h.coherent hs.coherent, hs.indexed, tagged, hs.inSync⟩

/-- A run of turns keeps a solver sound, by induction on its length. -/
theorem Sound.turns [LawfulScalar K] {m : Symbol} (hs : Sound s) (h : Turns m s t) : Sound t :=
  h.keeps hs fun turn hu => hu.turn turn

/-! ## Symbols -/

/-- Giving out a number changes neither rows nor unknowns. -/
theorem Sound.fresh (h : Sound s) (kind : SymbolKind) : Sound (s.fresh kind).2 := by
  have later {n : Nat} (hn : n < s.nextSymbol) : n < s.nextSymbol + 1 := Nat.lt_succ_of_lt hn
  refine ⟨?_, ?_, ?_, h.inSync⟩
  · exact h.coherent.sub (fun _ r hb => ⟨r, hb, fun _ => id⟩) (fun _ => id) (fun _ => id)
      (Nat.le_succ _)
  · intro v x hx
    obtain ⟨hv, he, hi⟩ := h.indexed v x hx
    exact ⟨hv, he, later hi⟩
  · intro id held hid
    obtain ⟨hm, hi, ho⟩ := h.tagged id held hid
    exact ⟨hm, later hi, fun σ hσ => later (ho σ hσ)⟩

/-- A symbol just given out is not in use, since all symbols in use have smaller numbers. -/
theorem Sound.fresh_free (h : Sound s) (kind : SymbolKind) :
    (s.fresh kind).2.Free (s.fresh kind).1 :=
  ⟨h.coherent.notBasic (Nat.le_refl _), Nat.lt_succ_self _⟩

/-- The objective may be replaced by any row over symbols that are not basic. -/
theorem Sound.setObjective (h : Sound s) {o : Row K} (ho : ∀ σ, o.Has σ → s.Free σ) :
    Sound { s with objective := o } :=
  ⟨h.coherent.setObjective ho, h.indexed, h.tagged, h.inSync⟩

end

/-! ## Mentions -/

section

variable {s : Solver K}

/-- Another count of the mentions of an unknown. -/
theorem Sound.recount (h : Sound s) {v : Variable} {x : Tracked K} (hx : s.tracked.get? v = some x)
    (mentions : Nat) : Sound { s with tracked := s.tracked.insert v { x with mentions } } := by
  have tracked {w : Variable} {y : Tracked K}
      (hy : (s.tracked.insert v { x with mentions }).get? w = some y) :
      ∃ y', s.tracked.get? w = some y' ∧ y'.symbol = y.symbol ∧ y'.reported = y.reported := by
    rw [OrderedMap.get?_insert] at hy
    split at hy
    next hw =>
      cases hy
      exact ⟨x, hw ▸ hx, rfl, rfl⟩
    next => exact ⟨y, hy, rfl, rfl⟩
  refine ⟨h.coherent.same ⟨rfl, rfl, rfl, rfl⟩, ?_, h.tagged, ?_⟩
  · intro w y hy
    obtain ⟨y', hy', hsymbol, -⟩ := tracked hy
    exact hsymbol ▸ h.indexed w y' hy'
  · intro w y hy
    obtain ⟨y', hy', hsymbol, hreported⟩ := tracked hy
    exact hsymbol ▸ hreported ▸ h.inSync w y' hy'

/-- An unknown comes into the solver with a new symbol, which has the value zero, so nothing has to be
on record for it. One that is there already is counted once more. -/
theorem Sound.mention (h : Sound s) (v : Variable) :
    Sound (s.mention v).2 ∧ s.nextSymbol ≤ (s.mention v).2.nextSymbol ∧
      (s.mention v).1.id < (s.mention v).2.nextSymbol := by
  unfold Solver.mention
  split
  next x hx => exact ⟨h.recount hx _, Nat.le_refl _, (h.indexed v x hx).2.2⟩
  next hx =>
    have made := h.fresh .external
    have unused {w : Variable} {y : Tracked K} (hy : s.tracked.get? w = some y) :
        y.symbol ≠ ⟨s.nextSymbol, .external⟩ := by
      intro heq
      have := (h.indexed w y hy).2.2
      rw [heq] at this
      exact Nat.lt_irrefl _ this
    refine ⟨⟨made.coherent.same ⟨rfl, rfl, rfl, rfl⟩, ?_, made.tagged, ?_⟩, Nat.le_succ _,
      Nat.lt_succ_self _⟩
    · intro w y hy
      simp only [Solver.fresh, OrderedMap.get?_insert] at hy ⊢
      split at hy
      next hw =>
        cases hy
        rw [if_pos rfl, hw]
        exact ⟨rfl, rfl, Nat.lt_succ_self _⟩
      next =>
        rw [if_neg (unused hy)]
        exact made.indexed w y hy
    · intro w y hy
      simp only [Solver.fresh, OrderedMap.get?_insert] at hy
      split at hy
      · cases hy
        refine .inr ?_
        have zero : Solver.valueOf (K := K) { s with nextSymbol := s.nextSymbol + 1 }
            ⟨s.nextSymbol, .external⟩ = 0.0 := by
          rw [valueOf, h.coherent.notBasic (Nat.le_refl _)]
        exact zero ▸ .refl _
      · exact made.inSync w y hy

/-- An unknown that a constraint no longer mentions is counted down, or forgotten together with its
symbol if that was the last mention. -/
theorem Sound.unmention (h : Sound s) (v : Variable) : Sound (s.unmention v) := by
  unfold Solver.unmention
  split
  · exact h
  next x hx =>
    split
    · refine ⟨h.coherent.same ⟨rfl, rfl, rfl, rfl⟩, fun w y hy => ?_, h.tagged, fun w y hy => ?_⟩
      all_goals
        rw [OrderedMap.get?_erase] at hy
        split at hy
        · cases hy
      next hwv =>
        obtain ⟨hw, he, hi⟩ := h.indexed w y hy
        have hne : y.symbol ≠ x.symbol := by
          intro heq
          rw [heq, (h.indexed v x hx).1] at hw
          exact hwv (Option.some.inj hw).symm
        exact ⟨(OrderedMap.get?_erase ..).trans ((if_neg hne).trans hw), he, hi⟩
      next => exact h.inSync w y hy
    · exact h.recount hx _

/-- The same for all the unknowns of a constraint, one after the other. -/
theorem Sound.unmentionAll (vs : List Variable) {s : Solver K} (h : Sound s) :
    Sound (s.unmentionAll vs) := by
  induction vs generalizing s with
  | nil => exact h
  | cons v vs ih => exact ih (h.unmention v)

end

/-! ## The row of a constraint -/

section

variable {s : Solver K} {row : Row K}

/-- A row of free symbols stays one as unknowns are mentioned. -/
theorem addTerm_sound {acc : Row K × Solver K} (h : Sound acc.2)
    (hrow : ∀ σ, acc.1.Has σ → acc.2.Free σ) (t : Term K) :
    Sound (addTerm acc t).2 ∧ ∀ σ, (addTerm acc t).1.Has σ → (addTerm acc t).2.Free σ := by
  unfold addTerm
  split
  · exact ⟨h, hrow⟩
  · obtain ⟨sound, next, made⟩ := h.mention t.unknown
    have rows := mention_rows acc.2 t.unknown
    generalize acc.2.mention t.unknown = m at sound next made rows ⊢
    obtain ⟨symbol, u⟩ := m
    have kept : ∀ σ, acc.1.Has σ → u.Free σ := fun σ hσ =>
      ⟨rows ▸ (hrow σ hσ).notBasic, Nat.lt_of_lt_of_le (hrow σ hσ).made next⟩
    dsimp only at sound made rows ⊢
    split
    next basic hb =>
      exact ⟨sound, fun σ hσ => hσ.of_addRow.elim (kept σ) (sound.coherent.cells.rows symbol basic hb σ)⟩
    next hb =>
      refine ⟨sound, ?_⟩
      intro σ hσ
      rcases hσ.of_addCell with rfl | hσ
      · exact ⟨hb, made⟩
      · exact kept σ hσ

/-- Writing the terms of an expression into a row keeps the solver sound and the row free of
basic symbols: each term gives a new symbol to an unknown not met before, and replaces a basic
one by its row. -/
theorem foldl_addTerm_sound (terms : List (Term K)) (acc : Row K × Solver K) (h : Sound acc.2)
    (hrow : ∀ σ, acc.1.Has σ → acc.2.Free σ) :
    Sound (terms.foldl addTerm acc).2 ∧
      ∀ σ, (terms.foldl addTerm acc).1.Has σ → (terms.foldl addTerm acc).2.Free σ := by
  induction terms generalizing acc with
  | nil => exact ⟨h, hrow⟩
  | cons t terms ih =>
    obtain ⟨sound, free⟩ := addTerm_sound h hrow t
    exact ih _ sound free

/-- A new symbol in a row. -/
theorem fits_addCell (h : Sound s) (hrow : ∀ σ, row.Has σ → s.Free σ) (kind : SymbolKind) (c : K) :
    ∀ σ, (row.addCell (s.fresh kind).1 c).Has σ → (s.fresh kind).2.Free σ := by
  intro σ hσ
  rcases hσ.of_addCell with rfl | hσ
  · exact h.fresh_free kind
  · exact (hrow σ hσ).fresh kind

/-- A soft constraint brings two symbols, and costs at one of them or both. -/
theorem ready_soft (h : Sound s) {kind kind' : SymbolKind} (hkind : kind ≠ .external)
    {row : Row K} (hrow : ∀ σ, row.Has σ → ((s.fresh kind).2.fresh kind').2.Free σ)
    {objective : Row K}
    (ho : ∀ σ, objective.Has σ → ((s.fresh kind).2.fresh kind').2.Free σ) :
    Ready row ⟨(s.fresh kind).1, some ((s.fresh kind).2.fresh kind').1⟩
      { ((s.fresh kind).2.fresh kind').2 with objective } := by
  have sound := ((h.fresh kind).fresh kind').setObjective ho
  have free : ∀ σ, ((s.fresh kind).2.fresh kind').2.Free σ →
      Free { ((s.fresh kind).2.fresh kind').2 with objective } σ := fun σ hσ =>
    ⟨hσ.notBasic, hσ.made⟩
  refine ⟨sound, fun σ hσ => free σ (hrow σ hσ), ?_, by simpa [Symbol.isExternal], ?_, ?_⟩
  · exact free _ ((h.fresh_free kind).fresh kind')
  · intro σ hσ
    cases hσ
    exact free _ ((h.fresh kind).fresh_free kind')
  · rw [release, if_neg (by simp [Solver.fresh])]
    exact sound

/-- An inequality brings a slack as its marker, and an error as well unless it is required; all of
them are new and so not in use. -/
theorem addInequality_ready (h : Sound s) (hrow : ∀ σ, row.Has σ → s.Free σ) (slackSign : K)
    (priority : Priority) :
    Ready (s.addInequality row slackSign priority).1 (s.addInequality row slackSign priority).2.1
      (s.addInequality row slackSign priority).2.2 := by
  have first := fits_addCell h hrow .slack slackSign
  have cost : ∀ σ, s.objective.Has σ → (s.fresh .slack).2.Free σ := fun σ hσ =>
    (h.coherent.cells.objective σ hσ).fresh .slack
  have slack : SymbolKind.slack ≠ .external := by decide
  cases priority with
  | required =>
    exact ⟨h.fresh .slack, first, h.fresh_free .slack, rfl, (fun _ h => nomatch h),
      (release_fresh s .slack).symm ▸ h⟩
  | strong | medium | weak =>
    exact ready_soft h slack (fits_addCell (h.fresh .slack) first .error _)
      (fits_addCell (h.fresh .slack) cost .error _)

/-- An equation brings a dummy as its marker if it is required, and two errors otherwise. -/
theorem addEquation_ready (h : Sound s) (hrow : ∀ σ, row.Has σ → s.Free σ) (priority : Priority) :
    Ready (s.addEquation row priority).1 (s.addEquation row priority).2.1
      (s.addEquation row priority).2.2 := by
  have error : SymbolKind.error ≠ .external := by decide
  cases priority with
  | required =>
    exact ⟨h.fresh .dummy, fits_addCell h hrow .dummy _, h.fresh_free .dummy, rfl,
      (fun _ h => nomatch h), (release_fresh s .dummy).symm ▸ h⟩
  | strong | medium | weak =>
    exact ready_soft h error
      (fits_addCell (h.fresh .error) (fits_addCell h hrow .error _) .error _)
      (fits_addCell (h.fresh .error) (fits_addCell h h.coherent.cells.objective .error _) .error _)

/-- The row of a constraint is ready to be added. -/
theorem rowOf_ready (h : Sound s) (c : Constraint K) :
    Ready (s.rowOf c).1 (s.rowOf c).2.1 (s.rowOf c).2.2 := by
  have terms := foldl_addTerm_sound c.expression.terms (⟨c.expression.constant, ∅⟩, s) h
    fun σ hσ => absurd hσ (Row.not_has_empty _ σ)
  unfold rowOf
  generalize c.expression.terms.foldl addTerm (⟨c.expression.constant, ∅⟩, s) = acc at terms ⊢
  obtain ⟨row, u⟩ := acc
  obtain ⟨sound, free⟩ := terms
  have made : ∀ r : Row K × Tag × Solver K, Ready r.1 r.2.1 r.2.2 →
      Ready (if r.1.constant < 0.0 then r.1.negate else r.1) r.2.1 r.2.2 := by
    intro r hr
    refine { hr with row := fun σ hσ => hr.row σ ?_ }
    split at hσ
    · exact Row.has_negate.1 hσ
    · exact hσ
  cases c.relation with
  | lessOrEqual => exact made _ (addInequality_ready sound free _ _)
  | greaterOrEqual => exact made _ (addInequality_ready sound free _ _)
  | equal => exact made _ (addEquation_ready sound free _)

/-! ## Additions and removals -/

/-- A removal is a sequence of turns, after which the mentions are taken back if nothing failed: the
constraint is dropped, its cost taken out, its marker driven out, and the rest optimised. -/
theorem removeConstraint_turns (h : Sound s) {c : Constraint K} {held : Held K}
    (hc : s.held.get? c.id = some held) : ∃ t, Turns held.tag.marker s t ∧
      ((s.removeConstraint c).2 = t ∨ (s.removeConstraint c).2 = t.unmentionAll c.mentioned) := by
  obtain ⟨external, made, other⟩ := h.tagged c.id held hc
  have dropped : Turns held.tag.marker s { s with held := s.held.erase c.id } := by
    refine .single (.hold ?_)
    intro id entry hentry
    rw [OrderedMap.get?_erase] at hentry
    split at hentry
    · cases hentry
    · exact h.tagged id entry hentry
  have unmarked : Turns held.tag.marker s _ := dropped.trans <|
    (removeCost_turns (dropped.coherent h.coherent) made other c.priority).trans
      (dropMarker_turns external)
  rw [removeConstraint, hc]
  dsimp only
  generalize Solver.dropMarker (K := K) _ held.tag.marker = d at unmarked ⊢
  obtain ⟨failure | _, t⟩ := d
  · exact ⟨t, unmarked, .inl rfl⟩
  · have best := unmarked.trans (optimise_turns (unmarked.coherent h.coherent) false)
    dsimp only
    generalize t.optimise false = o at best ⊢
    obtain ⟨failure | _, u⟩ := o
    · exact ⟨u, best, .inl rfl⟩
    · refine ⟨u, best, .inr ?_⟩
      rw [Solver.unmentionAll, Constraint.mentioned, List.foldl_map]

variable [LawfulScalar K]

/-- From its row on, an addition is a sequence of turns, unless it is refused without being tried: the
row is added, the constraint held, and the whole optimised. -/
theorem addConstraint_turns (h : Sound s) {c : Constraint K} (hc : s.holds c.id = false)
    (tried : ¬ RefusedOutright (s.rowOf c).1 (s.rowOf c).2.1) :
    Turns (s.rowOf c).2.1.marker (s.rowOf c).2.2 (s.addConstraint c).2 := by
  have ready := rowOf_ready h c
  rw [addConstraint, if_neg (by simp [hc])]
  generalize s.rowOf c = r at ready tried ⊢
  obtain ⟨row, tag, t⟩ := r
  have added := addRow_turns ready.sound.coherent ready.row ready.marker ready.other tried
  dsimp only at ready added ⊢
  generalize t.addRow row tag = a at added ⊢
  obtain ⟨refusal | _, u⟩ := a
  · exact added
  · have sound := ready.sound.turns added
    have taken : Turns tag.marker t { u with held := u.held.insert c.id ⟨c, tag⟩ } := by
      refine added.tail (.hold ?_)
      intro id entry hentry
      rw [OrderedMap.get?_insert] at hentry
      split at hentry
      · cases hentry
        exact ⟨ready.markerKind, Nat.lt_of_lt_of_le ready.marker.made added.next,
          fun σ hσ => Nat.lt_of_lt_of_le (ready.other σ hσ).made added.next⟩
      · exact sound.tagged id entry hentry
    have best := taken.trans (optimise_turns (taken.coherent ready.sound.coherent) false)
    dsimp only
    generalize Solver.optimise (K := K) _ false = o at best ⊢
    obtain ⟨failure | _, v⟩ := o <;> exact best

/-- An addition keeps a solver sound, refused or not. -/
theorem addConstraint_sound (h : Sound s) (c : Constraint K) : Sound (s.addConstraint c).2 := by
  cases hc : s.holds c.id with
  | true => rwa [addConstraint, if_pos hc]
  | false =>
    have ready := rowOf_ready h c
    by_cases outright : RefusedOutright (s.rowOf c).1 (s.rowOf c).2.1
    · rw [addConstraint_of_refusedOutright hc outright]
      exact ready.released
    · exact ready.sound.turns (addConstraint_turns h hc outright)

/-- A removal keeps a solver sound, whether or not it fails. -/
theorem removeConstraint_sound (h : Sound s) (c : Constraint K) : Sound (s.removeConstraint c).2 := by
  cases hc : s.held.get? c.id with
  | none => rwa [removeConstraint, hc]
  | some held =>
    obtain ⟨t, turns, ended | ended⟩ := removeConstraint_turns h hc
    · exact ended ▸ h.turns turns
    · exact ended ▸ (h.turns turns).unmentionAll c.mentioned

end

/-! ## Reports -/

section

variable {s : Solver K}

/-- How far a report has come that started from the solver `s`: the unknowns in `done` have been
looked at, and only what was last reported of an unknown has changed. -/
structure Reporting (s : Solver K) (done : List Variable) (t : Solver K) : Prop where
  rest : t = { s with tracked := t.tracked }
  tracked : ∀ v x, t.tracked.get? v = some x →
    ∃ y, s.tracked.get? v = some y ∧ y.symbol = x.symbol ∧ y.mentions = x.mentions ∧
      (y.reported = x.reported ∧ v ∉ done ∨ Agree (x.reported.getD 0.0) (s.valueOf x.symbol))

/-- A report changes what was last reported and nothing that values are read from. -/
theorem Reporting.valueOf {done : List Variable} {t : Solver K} (h : Reporting s done t)
    (σ : Symbol) : t.valueOf σ = s.valueOf σ := by
  rw [h.rest]
  rfl

/-- One unknown more has been looked at: its value is reported unless it agrees with the one
reported before. -/
theorem Reporting.report {done : List Variable} {report : List (Variable × K) × Solver K}
    (h : Reporting s done report.2) (v : Variable) :
    Reporting s (done ++ [v]) (reportVariable report v).2 := by
  rcases reportVariable_cases report v with ⟨heq, hsame⟩ | ⟨x, hx, heq⟩
  · rw [heq]
    refine ⟨h.rest, ?_⟩
    intro w y hy
    obtain ⟨z, hz, hsymbol, hmentions, hreported⟩ := h.tracked w y hy
    refine ⟨z, hz, hsymbol, hmentions, ?_⟩
    rcases hreported with ⟨hreported, hw⟩ | hagree
    · by_cases hwv : w = v
      · subst hwv
        obtain ⟨old, hold, hbeq⟩ := hsame y hy
        rw [hold, Option.getD_some]
        exact .inr (.inl (h.valueOf y.symbol ▸ hbeq))
      · exact .inl ⟨hreported, by simp [hw, hwv]⟩
    · exact .inr hagree
  · rw [heq]
    refine ⟨by rw [h.rest], ?_⟩
    intro w y hy
    rw [OrderedMap.get?_insert] at hy
    split at hy
    next hwv =>
      cases hy
      obtain ⟨z, hz, hsymbol, hmentions, -⟩ := h.tracked v x hx
      exact ⟨z, hwv ▸ hz, hsymbol, hmentions, .inr (h.valueOf x.symbol ▸ .refl _)⟩
    next hwv =>
      obtain ⟨z, hz, hsymbol, hmentions, hreported⟩ := h.tracked w y hy
      refine ⟨z, hz, hsymbol, hmentions, ?_⟩
      rcases hreported with ⟨hr, hw⟩ | hagree
      · exact .inl ⟨hr, by simp [hw, hwv]⟩
      · exact .inr hagree

/-- A report that goes through a list of unknowns has looked at all of them. -/
theorem Reporting.foldl (vs : List Variable) {done : List Variable}
    {report : List (Variable × K) × Solver K} (h : Reporting s done report.2) :
    Reporting s (done ++ vs) (vs.foldl reportVariable report).2 := by
  induction vs generalizing done report with
  | nil => rwa [List.append_nil]
  | cons v vs ih =>
    have later := ih (h.report v)
    rwa [List.append_assoc] at later

/-- After a report every unknown in use has the value last reported for it, or zero if there was
none, and nothing is left on record. -/
theorem fetchChanges_agree (h : Sound s) :
    Sound s.fetchChanges.2 ∧ s.fetchChanges.2.pending = [] ∧
    (∀ σ, s.fetchChanges.2.valueOf σ = s.valueOf σ) ∧
    ∀ v x, s.fetchChanges.2.tracked.get? v = some x →
      Agree (x.reported.getD 0.0) (s.fetchChanges.2.valueOf x.symbol) := by
  -- The record that is looked at, whether or not the one before was reported already.
  obtain ⟨changed, reportedChanges, heq, hempty, hpending⟩ : ∃ changed reportedChanges,
      s.fetchChanges = changed.foldl reportVariable ([], { s with changed, reportedChanges }) ∧
      pending { s with changed, reportedChanges } = [] ∧ ∀ v, v ∉ changed → v ∉ s.pending := by
    rw [fetchChanges, pending]
    cases s.reportedChanges with
    | true => exact ⟨[], false, rfl, rfl, fun _ h => h⟩
    | false => exact ⟨s.changed, true, rfl, rfl, fun _ h => h⟩
  have start : Reporting { s with changed, reportedChanges } []
      (([] : List (Variable × K)), { s with changed, reportedChanges }).2 :=
    ⟨rfl, fun v x hx => ⟨x, hx, rfl, rfl, .inl ⟨rfl, List.not_mem_nil⟩⟩⟩
  have done := Reporting.foldl changed start
  rw [← heq, List.nil_append] at done
  have agree : ∀ v x, s.fetchChanges.2.tracked.get? v = some x →
      Agree (x.reported.getD 0.0) (s.fetchChanges.2.valueOf x.symbol) := by
    intro v x hx
    obtain ⟨y, hy, hsymbol, -, ⟨hreported, hv⟩ | hagree⟩ := done.tracked v x hx
    · rw [done.valueOf, ← hreported, ← hsymbol]
      exact (h.inSync v y hy).resolve_left (hpending v hv)
    · rw [done.valueOf]
      exact hagree
  refine ⟨⟨?_, ?_, ?_, fun v x hx => .inr (agree v x hx)⟩, ?_, done.valueOf, agree⟩
  · rw [done.rest]
    exact h.coherent.same ⟨rfl, rfl, rfl, rfl⟩
  · intro v x hx
    obtain ⟨y, hy, hsymbol, -⟩ := done.tracked v x hx
    rw [done.rest, ← hsymbol]
    exact h.indexed v y hy
  · rw [done.rest]
    exact h.tagged
  · rw [done.rest]
    exact hempty

end

end ViewConstraints.Simplex.Solver

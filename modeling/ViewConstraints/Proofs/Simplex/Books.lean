import ViewConstraints.Proofs.Simplex.Unseen

/-!
# The books of a solver

A solver keeps books beside its tableau: the constraints it holds, and what it knows of each unknown.
`SameBooks` says that two solvers agree on them. All of pivoting leaves the books alone, so that an
addition changes them only by mentioning the unknowns of the constraint and by taking it into the
held set (`addConstraint_added`), and a removal only by dropping it and, if nothing failed, taking
the mentions back (`removeConstraint_removed`).
-/

namespace ViewConstraints

open Linear

/-- The unknowns that a solver counts a constraint to mention: one for each term that is not near
zero. -/
def Linear.Constraint.mentioned {K : Type} [Scalar K] (c : Constraint K) : List Variable :=
  (c.expression.terms.filter fun t => !isNearZero t.coefficient).map Term.unknown

namespace Simplex.Solver

/-! ## Agreement on the books -/

section

variable {K : Type}

/-- Two solvers that hold the same constraints and know the same of the unknowns. -/
structure SameBooks (s t : Solver K) : Prop where
  held : t.held = s.held
  tracked : t.tracked = s.tracked
  variableOf : t.variableOf = s.variableOf

namespace SameBooks

theorem refl (s : Solver K) : SameBooks s s := ⟨rfl, rfl, rfl⟩

theorem trans {s t u : Solver K} (h : SameBooks s t) (h' : SameBooks t u) : SameBooks s u :=
  ⟨h'.held.trans h.held, h'.tracked.trans h.tracked, h'.variableOf.trans h.variableOf⟩

end SameBooks

/-- The record of changes is no part of the books. -/
theorem markChanged_books (s : Solver K) (symbol : Symbol) :
    SameBooks s (s.markChanged symbol) := by
  rw [markChanged]
  split <;> exact ⟨rfl, rfl, rfl⟩

/-! ## Mentions -/

/-- A solver after one more mention of each unknown of a list. -/
def mentionAll (s : Solver K) (vs : List Variable) : Solver K :=
  vs.foldl (fun s v => (s.mention v).2) s

/-- A solver after one mention less of each unknown of a list. -/
def unmentionAll (s : Solver K) (vs : List Variable) : Solver K :=
  vs.foldl (fun s v => s.unmention v) s

theorem mentionAll_cons (s : Solver K) (v : Variable) (vs : List Variable) :
    s.mentionAll (v :: vs) = (s.mention v).2.mentionAll vs := rfl

theorem unmentionAll_cons (s : Solver K) (v : Variable) (vs : List Variable) :
    s.unmentionAll (v :: vs) = (s.unmention v).unmentionAll vs := rfl

/-- A mention changes nothing of what is held. -/
theorem mention_held (s : Solver K) (v : Variable) : (s.mention v).2.held = s.held := by
  rw [mention]
  split <;> rfl

/-- A mention changes no row: a new unknown starts outside of the tableau. -/
theorem mention_rows (s : Solver K) (v : Variable) : (s.mention v).2.rows = s.rows := by
  rw [mention]
  split <;> rfl

/-- Mentions change nothing of what is held. -/
theorem mentionAll_held (s : Solver K) (vs : List Variable) : (s.mentionAll vs).held = s.held := by
  induction vs generalizing s with
  | nil => rfl
  | cons v vs ih => exact (ih _).trans (mention_held s v)

/-- Mentions change no row. -/
theorem mentionAll_rows (s : Solver K) (vs : List Variable) : (s.mentionAll vs).rows = s.rows := by
  induction vs generalizing s with
  | nil => rfl
  | cons v vs ih => exact (ih _).trans (mention_rows s v)

/-- Taking back a mention changes nothing of what is held. -/
theorem unmention_held (s : Solver K) (v : Variable) : (s.unmention v).held = s.held := by
  rw [unmention]
  split
  · rfl
  · split <;> rfl

/-- Taking back a mention leaves the rows, also if the unknown is forgotten: its symbol may
stay basic. -/
theorem unmention_rows (s : Solver K) (v : Variable) : (s.unmention v).rows = s.rows := by
  rw [unmention]
  split
  · rfl
  · split <;> rfl

/-- Taking back mentions leaves the rows. -/
theorem unmentionAll_rows (s : Solver K) (vs : List Variable) :
    (s.unmentionAll vs).rows = s.rows := by
  induction vs generalizing s with
  | nil => rfl
  | cons v vs ih => exact (ih _).trans (unmention_rows s v)

/-- Taking back mentions changes nothing of what is held. -/
theorem unmentionAll_held (s : Solver K) (vs : List Variable) :
    (s.unmentionAll vs).held = s.held := by
  induction vs generalizing s with
  | nil => rfl
  | cons v vs ih => exact (ih _).trans (unmention_held s v)

end

variable {K : Type} [Scalar K]

/-! ## Reports -/

/-- A report of one unknown: it is not in use, or has the value last reported, or is reported. -/
theorem reportVariable_cases (report : List (Variable × K) × Solver K) (v : Variable) :
    (reportVariable report v = report ∧ ∀ t, report.2.tracked.get? v = some t →
      ∃ old, t.reported = some old ∧ (old == report.2.valueOf t.symbol) = true) ∨
    ∃ t, report.2.tracked.get? v = some t ∧ reportVariable report v =
      (report.1 ++ [(v, report.2.valueOf t.symbol)],
        { report.2 with tracked :=
            report.2.tracked.insert v { t with reported := some (report.2.valueOf t.symbol) } }) := by
  rw [reportVariable]
  split
  next hv => exact .inl ⟨rfl, fun t ht => by rw [hv] at ht; cases ht⟩
  next t ht =>
    cases hr : t.reported with
    | none => exact .inr ⟨t, ht, rfl⟩
    | some old =>
      dsimp only
      split
      next hsame =>
        refine .inl ⟨rfl, ?_⟩
        intro t' ht'
        rw [ht] at ht'
        cases ht'
        exact ⟨old, hr, hsame⟩
      next => exact .inr ⟨t, ht, rfl⟩

/-- What no report of a single unknown changes, nor the record of changes bears on, a report leaves
as it is. -/
theorem fetchChanges_keeps {α : Type} {f : Solver K → α}
    (report : ∀ r v, f (reportVariable r v).2 = f r.2)
    (record : ∀ s changed reportedChanges, f { s with changed, reportedChanges } = f s)
    (s : Solver K) : f s.fetchChanges.2 = f s := by
  have reported (vs : List Variable) :
      ∀ r : List (Variable × K) × Solver K, f (vs.foldl reportVariable r).2 = f r.2 := by
    induction vs with
    | nil => intro _; rfl
    | cons v vs ih => exact fun r => (ih _).trans (report r v)
  rw [fetchChanges]
  cases s.reportedChanges with
  | true => exact (reported _ _).trans (record s [] false)
  | false => exact (reported _ _).trans (record s s.changed true)

/-- A report leaves the held set alone. -/
theorem fetchChanges_held (s : Solver K) : s.fetchChanges.2.held = s.held := by
  refine fetchChanges_keeps ?_ (fun _ _ _ => rfl) s
  intro r v
  rcases reportVariable_cases r v with ⟨heq, -⟩ | ⟨x, -, heq⟩ <;> rw [heq]

/-! ## Pivoting -/

omit [Scalar K] in
/-- The work on a tableau leaves the books alone. -/
theorem unseen_books (s : Solver K) : Unseen fun u w => w = u ∧ SameBooks s u :=
  .of_kept (fun t symbol h => h.trans (markChanged_books t symbol))
    fun _ _ _ _ _ h => ⟨h.held, h.tracked, h.variableOf⟩

/-- Symbols whose constants move are put on record, and the books stay as they are. -/
theorem substitute_books (s : Solver K) (symbol : Symbol) (row : Row K) :
    SameBooks s (s.substitute symbol row) :=
  ((unseen_books s).substitute ⟨rfl, .refl s⟩ symbol row).2

/-- A symbol that becomes basic is put on record at most, and the books stay as they are. -/
theorem install_books (s : Solver K) (symbol : Symbol) (row : Row K) :
    SameBooks s (s.install symbol row) :=
  ((unseen_books s).install ⟨rfl, .refl s⟩ symbol row).2

/-- Optimisation leaves the books alone, also if it fails. -/
theorem optimise_books (s : Solver K) (ofArtificial : Bool) :
    SameBooks s (s.optimise ofArtificial).2 :=
  ((unseen_books s).optimise ⟨rfl, .refl s⟩ ofArtificial).related.2

/-- Bringing a row into the tableau leaves the books alone, also if it is refused. -/
theorem addRow_books (s : Solver K) (row : Row K) (tag : Tag) :
    SameBooks s (s.addRow row tag).2 :=
  ((unseen_books s).addRow ⟨rfl, .refl s⟩ row tag).related.2

/-- Taking errors out of the objective leaves the books alone. -/
theorem removeCost_books (s : Solver K) (tag : Tag) (priority : Priority) :
    SameBooks s (s.removeCost tag priority) :=
  ((unseen_books s).removeCost ⟨rfl, .refl s⟩ tag priority).2

/-- Taking a marker out of the tableau leaves the books alone. -/
theorem dropMarker_books (s : Solver K) (marker : Symbol) :
    SameBooks s (s.dropMarker marker).2 :=
  ((unseen_books s).dropMarker ⟨rfl, .refl s⟩ marker).related.2

/-! ## The row of a constraint -/

/-- Whatever row the terms of an expression are added to, the solver counts one mention for each term
that is not near zero. -/
theorem foldl_addTerm_snd (terms : List (Term K)) (acc : Row K × Solver K) :
    (terms.foldl addTerm acc).2 =
      acc.2.mentionAll ((terms.filter fun t => !isNearZero t.coefficient).map Term.unknown) := by
  induction terms generalizing acc with
  | nil => rfl
  | cons t terms ih =>
    rw [List.foldl_cons, ih]
    cases hz : isNearZero t.coefficient with
    | true => simp [addTerm, hz]
    | false =>
      have hstep : (addTerm acc t).2 = (acc.2.mention t.unknown).2 := by
        simp only [addTerm, hz, Bool.false_eq_true, if_false]
        split <;> rfl
      simp [hz, hstep, mentionAll]

/-- Building the row of a constraint mentions its unknowns and makes new symbols, nothing else of the
books. -/
theorem rowOf_books (s : Solver K) (c : Constraint K) :
    SameBooks (s.mentionAll c.mentioned) (s.rowOf c).2.2 := by
  have h := foldl_addTerm_snd c.expression.terms (⟨c.expression.constant, ∅⟩, s)
  rw [rowOf]
  rw [Constraint.mentioned, ← h]
  cases c.relation <;> cases c.priority <;> exact ⟨rfl, rfl, rfl⟩

/-! ## Additions and removals -/

/-- A row is refused as unsatisfiable or through a failure of the tableau. -/
theorem addRow_refusal (s : Solver K) (row : Row K) (tag : Tag) :
    ∀ refusal, (s.addRow row tag).1 = .error refusal →
      refusal ≠ .duplicate ∧ refusal ≠ .unknown := by
  intro refusal h
  rw [addRow] at h
  split at h
  · split at h <;> cases h
    exact ⟨by decide, by decide⟩
  · split at h
    · cases h
    · split at h <;> cases h
      · exact ⟨by decide, by decide⟩
      · exact ⟨by simp, by simp⟩

/-- What an addition does to the books, by its answer. -/
inductive Added (s : Solver K) (c : Constraint K) : Except Refusal Unit → Solver K → Prop where
  /-- A constraint that is held already is refused without effect. -/
  | duplicate : s.holds c.id = true → Added s c (.error .duplicate) s
  | accepted {t u : Solver K} (tag : Tag) : s.holds c.id = false →
      SameBooks (s.mentionAll c.mentioned) t →
      SameBooks { t with held := t.held.insert c.id ⟨c, tag⟩ } u → Added s c (.ok ()) u
  /-- A refusal leaves the mentions behind. -/
  | refused {t : Solver K} (refusal : Refusal) : s.holds c.id = false → refusal ≠ .duplicate →
      refusal ≠ .unknown → SameBooks (s.mentionAll c.mentioned) t → Added s c (.error refusal) t
  /-- A failure to make the tableau optimal comes after the constraint was taken in. -/
  | failed {t u : Solver K} (tag : Tag) (failure : Failure) : s.holds c.id = false →
      SameBooks (s.mentionAll c.mentioned) t →
      SameBooks { t with held := t.held.insert c.id ⟨c, tag⟩ } u →
      Added s c (.error (.internal failure)) u

/-- What a removal does to the books, by its answer. -/
inductive Removed (s : Solver K) (c : Constraint K) : Except Refusal Unit → Solver K → Prop where
  | unknown : s.held.get? c.id = none → Removed s c (.error .unknown) s
  | removed {t : Solver K} (held : Held K) : s.held.get? c.id = some held →
      SameBooks { s with held := s.held.erase c.id } t →
      Removed s c (.ok ()) (t.unmentionAll c.mentioned)
  /-- A failure comes after the constraint was dropped, and keeps its mentions. -/
  | failed {t : Solver K} (held : Held K) (failure : Failure) : s.held.get? c.id = some held →
      SameBooks { s with held := s.held.erase c.id } t → Removed s c (.error (.internal failure)) t

/-- An addition ends in one of the ways `Added` lists. -/
theorem addConstraint_added (s : Solver K) (c : Constraint K) :
    Added s c (s.addConstraint c).1 (s.addConstraint c).2 := by
  rw [addConstraint]
  cases hc : s.holds c.id with
  | true => exact .duplicate hc
  | false =>
    have mentioned := rowOf_books s c
    generalize s.rowOf c = r at mentioned ⊢
    obtain ⟨row, tag, t⟩ := r
    have added := mentioned.trans (addRow_books t row tag)
    have answers := addRow_refusal t row tag
    simp only [Bool.false_eq_true, if_false]
    generalize t.addRow row tag = a at added answers ⊢
    obtain ⟨answer, u⟩ := a
    rcases answer with refusal | _
    · exact .refused refusal hc (answers _ rfl).1 (answers _ rfl).2 added
    · have best := optimise_books { u with held := u.held.insert c.id ⟨c, tag⟩ } false
      dsimp only
      generalize Solver.optimise (K := K) _ false = o at best ⊢
      obtain ⟨failure | _, v⟩ := o
      · exact .failed tag failure hc added best
      · exact .accepted tag hc added best

/-- A removal ends in one of the ways `Removed` lists. -/
theorem removeConstraint_removed (s : Solver K) (c : Constraint K) :
    Removed s c (s.removeConstraint c).1 (s.removeConstraint c).2 := by
  rw [removeConstraint]
  split
  next hc => exact .unknown hc
  next held hc =>
    have costless := removeCost_books { s with held := s.held.erase c.id } held.tag c.priority
    have dropped := costless.trans (dropMarker_books _ held.tag.marker)
    dsimp only
    generalize Solver.dropMarker (K := K) _ held.tag.marker = d at dropped ⊢
    obtain ⟨failure | _, t⟩ := d
    · exact .failed held failure hc dropped
    · have best := dropped.trans (optimise_books t false)
      dsimp only
      generalize t.optimise false = o at best ⊢
      obtain ⟨failure | _, u⟩ := o
      · exact .failed held failure hc best
      · have given : ((c.expression.terms.filter fun t => !isNearZero t.coefficient).foldl
            (fun s t => s.unmention t.unknown) u) = u.unmentionAll c.mentioned := by
          rw [unmentionAll, Constraint.mentioned, List.foldl_map]
        dsimp only
        rw [given]
        exact .removed held hc best

end Simplex.Solver

end ViewConstraints

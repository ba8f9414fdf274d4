import Mathlib.Data.List.Forall2
import Mathlib.Data.List.Induction
import ViewConstraints.Layout.Recorder
import ViewConstraints.Proofs.Scene.Requests

/-!
# What a layout block asks for

A block run against the recorder asks for one constraint for each statement, in order, and activates
it once (`Journal.layout_lowered`). `Lowered` says which constraint a statement asks for, and
`Shifted` which distance a chain of offsets amounts to; neither mentions how a block is run.
-/

namespace ViewConstraints.Layout

variable {K : Type}

section

variable [Scalar K]

/-! ## What is asked for -/

/-- `Shifted chain offset`: an anchor moved by the steps of `chain` is at the distance `offset` from
where it was. The first step sets the distance, and every later step is added to it or taken off. -/
inductive Shifted : List (Shift K) → K → Prop where
  | bare : Shifted [] 0.0
  | plus (amount : K) : Shifted [.plus amount] amount
  | minus (amount : K) : Shifted [.minus amount] (-amount)
  | thenPlus {chain : List (Shift K)} {offset : K} (amount : K) :
    chain ≠ [] → Shifted chain offset → Shifted (chain ++ [.plus amount]) (offset + amount)
  | thenMinus {chain : List (Shift K)} {offset : K} (amount : K) :
    chain ≠ [] → Shifted chain offset → Shifted (chain ++ [.minus amount]) (offset - amount)

/-- `Lowered name lhs relating call`: that the anchor `lhs` is related as written asks for the
constraint `call`, where `name` names anchors. -/
inductive Lowered (name : Anchor → AnchorName) (lhs : AnchorName) :
    Relating K → Relationship K → Prop where
  | equalTo (p : Place K) {offset : K} : Shifted p.shifts offset →
    Lowered name lhs (.equalTo (.place p)) (.between lhs .equal (name p.anchor) offset)
  | equalToNumber (value : K) : Lowered name lhs (.equalTo (.number value)) (.fixed lhs value)
  | greaterThanOrEqualTo (p : Place K) {offset : K} : Shifted p.shifts offset →
    Lowered name lhs (.greaterThanOrEqualTo p)
      (.between lhs .greaterOrEqual (name p.anchor) offset)
  | lessThanOrEqualTo (p : Place K) {offset : K} : Shifted p.shifts offset →
    Lowered name lhs (.lessThanOrEqualTo p) (.between lhs .lessOrEqual (name p.anchor) offset)
  | explicit (relation : Relation) (anchor : Anchor) (offset : K) :
    Lowered name lhs (.explicit relation anchor offset) (.between lhs relation (name anchor) offset)
  | equalConstant (value : K) : Lowered name lhs (.equalConstant value) (.fixed lhs value)

/-- The anchor of a property as the recorder writes it, without its view. -/
def Property.path : Property → String
  | leading => "leading"
  | safeLeading => "safe.leading"
  | trailing => "trailing"
  | safeTrailing => "safe.trailing"
  | top => "top"
  | safeTop => "safe.top"
  | bottom => "bottom"
  | safeBottom => "safe.bottom"
  | width => "width"
  | height => "height"
  | centerX => "centerX"
  | centerY => "centerY"

/-- A shift at the end of a chain is applied to the distance of those before it. -/
theorem Shift.total?_concat {chain : List (Shift K)} (h : chain ≠ []) (last : Shift K) :
    Shift.total? (chain ++ [last]) = (Shift.total? chain).map fun offset => last.apply offset := by
  cases chain with
  | nil => exact absurd rfl h
  | cons first rest =>
    rw [List.cons_append, total?, total?, List.foldl_append]
    rfl

/-- Every chain has one distance, the one that a place computes. -/
theorem shifted_iff {chain : List (Shift K)} {offset : K} :
    Shifted chain offset ↔ offset = (Shift.total? chain).getD 0.0 := by
  have some_of_ne {chain : List (Shift K)} (h : chain ≠ []) : ∃ d, Shift.total? chain = some d := by
    cases chain with
    | nil => exact absurd rfl h
    | cons first rest => exact ⟨_, rfl⟩
  constructor
  · intro h
    induction h with
    | bare | plus | minus => rfl
    | thenPlus amount hne _ ih | thenMinus amount hne _ ih =>
      obtain ⟨d, hd⟩ := some_of_ne hne
      rw [ih, Shift.total?_concat hne, hd]
      rfl
  · rintro rfl
    induction chain using List.reverseRecOn with
    | nil => exact .bare
    | append_singleton chain last ih =>
      cases chain with
      | nil =>
        cases last with
        | plus c => exact .plus c
        | minus c => exact .minus c
      | cons first rest =>
        have hne : first :: rest ≠ [] := List.cons_ne_nil _ _
        rw [Shift.total?_concat hne]
        cases last with
        | plus c => exact .thenPlus c hne ih
        | minus c => exact .thenMinus c hne ih

/-- The constraint that an anchor related as written asks for. -/
def Relating.call (name : Anchor → AnchorName) (lhs : AnchorName) : Relating K → Relationship K
  | .equalTo (.place p) => .between lhs .equal (name p.anchor) p.offset
  | .equalTo (.number value) => .fixed lhs value
  | .greaterThanOrEqualTo p => .between lhs .greaterOrEqual (name p.anchor) p.offset
  | .lessThanOrEqualTo p => .between lhs .lessOrEqual (name p.anchor) p.offset
  | .explicit relation anchor offset => .between lhs relation (name anchor) offset
  | .equalConstant value => .fixed lhs value

/-- The constraint that a statement on a view asks for. -/
def Statement.call (name : Anchor → AnchorName) (view : ViewId) (st : Statement K) :
    Relationship K :=
  st.relating.call name (name (st.property.anchor view))

/-- The constraint that a relation is lowered to is the one that the engine is called with. -/
theorem lowered_iff {name : Anchor → AnchorName} {lhs : AnchorName} {relating : Relating K}
    {call : Relationship K} : Lowered name lhs relating call ↔ call = relating.call name lhs := by
  constructor
  · intro h
    cases h with
    | equalTo p hd | greaterThanOrEqualTo p hd | lessThanOrEqualTo p hd =>
      rw [Relating.call, Place.offset, shifted_iff.1 hd]
    | equalToNumber | explicit | equalConstant => rfl
  · rintro rfl
    cases relating with
    | equalTo target =>
      cases target with
      | place p => exact .equalTo p (shifted_iff.2 rfl)
      | number value => exact .equalToNumber value
    | greaterThanOrEqualTo p => exact .greaterThanOrEqualTo p (shifted_iff.2 rfl)
    | lessThanOrEqualTo p => exact .lessThanOrEqualTo p (shifted_iff.2 rfl)
    | explicit relation anchor offset => exact .explicit relation anchor offset
    | equalConstant value => exact .equalConstant value

end

namespace Journal

/-- The property of a view is read off the view, or off its safe area. -/
theorem recordedText_nameOf (j : Journal K) (view : ViewId) (p : Property) :
    recordedText (j.nameOf (p.anchor view)) = j.views[view]?.getD "" ++ "." ++ p.path := by
  cases p <;>
    simp [recordedText, AnchorName.dotted, nameOf, Property.anchor, Property.isSafe,
      Property.feature, Feature.name, Property.path, String.append_assoc]

/-! ## What is written down -/

/-- A constraint that was made and activated once. -/
def activatedOnce (call : Relationship K) : RecordedConstraint K :=
  { relationship := call, active := true, activations := 1 }

/-- `Wrote j j' calls reports`: from `j` to `j'` the constraints `calls` were made and activated
once each, and `reports` were reported. Nothing is said of how often anchors were looked up. -/
structure Wrote (j j' : Journal K) (calls : List (Relationship K)) (reports : List (Applied K)) :
    Prop where
  views : j'.views = j.views
  flagWrites : j'.flagWrites = j.flagWrites
  constraints : j'.constraints = j.constraints ++ calls.map activatedOnce
  reports : j'.reports = j.reports ++ reports

namespace Wrote

variable {j j' j'' : Journal K} {calls calls' : List (Relationship K)}
  {reports reports' : List (Applied K)}

/-- A request that only counts what was looked up makes no constraint. -/
theorem of_looked (views : j'.views = j.views) (flagWrites : j'.flagWrites = j.flagWrites)
    (constraints : j'.constraints = j.constraints) (reports : j'.reports = j.reports) :
    Wrote j j' [] [] :=
  ⟨views, flagWrites, constraints ▸ (List.append_nil _).symm, reports ▸ (List.append_nil _).symm⟩

theorem refl (j : Journal K) : Wrote j j [] [] := of_looked rfl rfl rfl rfl

theorem trans (h : Wrote j j' calls reports) (h' : Wrote j' j'' calls' reports') :
    Wrote j j'' (calls ++ calls') (reports ++ reports') where
  views := h'.views.trans h.views
  flagWrites := h'.flagWrites.trans h.flagWrites
  constraints := by rw [h'.constraints, h.constraints, List.map_append, List.append_assoc]
  reports := by rw [h'.reports, h.reports, List.append_assoc]

theorem nameOf (h : Wrote j j' calls reports) : j'.nameOf = j.nameOf := by
  funext a
  rw [Journal.nameOf, Journal.nameOf, h.views]

end Wrote

/-- Looking up an anchor writes down its name. -/
theorem host_readAnchor (j : Journal K) (a : Anchor) :
    (host.readAnchor a j).1.name = j.nameOf a ∧ Wrote j (host.readAnchor a j).2 [] [] :=
  ⟨rfl, Wrote.of_looked rfl rfl rfl rfl⟩

/-- Looking up a guide makes no constraint. -/
theorem host_readGuide (j : Journal K) (view : ViewId) :
    Wrote j (host.readGuide view j).2 [] [] :=
  Wrote.of_looked rfl rfl rfl rfl

/-- An anchor is looked up under its name, through the guide if it is one of the safe area. -/
theorem host_fetch (j : Journal K) (a : Anchor) :
    (host.fetch a j).1.name = j.nameOf a ∧ Wrote j (host.fetch a j).2 [] [] := by
  unfold Host.fetch
  cases a.safe with
  | false => exact host_readAnchor j a
  | true =>
    have guide := host_readGuide j a.view
    have anchor := host_readAnchor (host.readGuide a.view j).2 a
    exact ⟨guide.nameOf ▸ anchor.1, guide.trans anchor.2⟩

/-- A constraint that is made, activated and reported is on record as activated once. -/
theorem host_apply (j : Journal K) (call : Relationship K) (report : Applied K) :
    ((record call >>= fun c => host.apply c report) j).1 = j.constraints.length ∧
      Wrote j ((record call >>= fun c => host.apply c report) j).2 [call] [report] := by
  refine ⟨rfl, rfl, rfl, ?_, rfl⟩
  show List.modify (j.constraints ++ [_]) j.constraints.length _ = _
  simp [List.modify_eq_take_cons_drop, activatedOnce]

/-- The anchors cached for a view have the names of those that its properties stand for. -/
def CacheOf (j : Journal K) (view : ViewId) (cache : Cache RecordedAnchor) : Prop :=
  ∀ p a, cache.get? p = some a → a.name = j.nameOf (p.anchor view)

/-- Through the cache or not, a property reads as an anchor with the name of the one it stands
for. -/
theorem host_readProperty {j : Journal K} {view : ViewId} {cache : Cache RecordedAnchor}
    (h : CacheOf j view cache) (p : Property) :
    ∃ a cache' j', host.readProperty view p cache j = ((a, cache'), j') ∧
      a.name = j.nameOf (p.anchor view) ∧ CacheOf j view cache' ∧ Wrote j j' [] [] := by
  unfold Host.readProperty
  cases hp : cache.get? p with
  | some a => exact ⟨a, cache, j, rfl, h p a hp, h, .refl j⟩
  | none =>
    have extended {a : RecordedAnchor} (ha : a.name = j.nameOf (p.anchor view)) :
        CacheOf j view ⟨cache.guideRead || p.isSafe, (p, a) :: cache.anchors⟩ :=
      Cache.forall_cons h _ ha
    cases p.isSafe && !cache.guideRead with
    | false =>
      obtain ⟨hname, hread⟩ := host_readAnchor j (p.anchor view)
      exact ⟨_, _, _, rfl, hname, extended hname, hread⟩
    | true =>
      have guide := host_readGuide j view
      obtain ⟨hname, hread⟩ := host_readAnchor (host.readGuide view j).2 (p.anchor view)
      rw [guide.nameOf] at hname
      exact ⟨_, _, _, rfl, hname, extended hname, guide.trans hread⟩

variable [Scalar K]

/-- That an anchor is related as written makes one constraint, the one it asks for, and activates it
once. -/
theorem host_applyRelating (j : Journal K) (lhs : RecordedAnchor) (relating : Relating K) :
    (host.applyRelating lhs relating j).1 = j.constraints.length ∧
      Wrote j (host.applyRelating lhs relating j).2
        [relating.call j.nameOf lhs.name] [relating.report] := by
  -- The target is looked up first, which changes no name and makes no constraint.
  have toAnchor (relation : Relation) (anchor : Anchor) (offset : K) (report : Applied K) :
      ((host.fetch anchor >>= fun rhs => record (.between lhs.name relation rhs.name offset) >>=
          fun c => host.apply c report) j).1 = j.constraints.length ∧
        Wrote j ((host.fetch anchor >>= fun rhs =>
          record (.between lhs.name relation rhs.name offset) >>= fun c => host.apply c report) j).2
          [.between lhs.name relation (j.nameOf anchor) offset] [report] := by
    obtain ⟨hname, hfetch⟩ := host_fetch j anchor
    obtain ⟨hid, happly⟩ := host_apply (host.fetch anchor j).2
      (.between lhs.name relation (host.fetch anchor j).1.name offset) report
    rw [hfetch.constraints, List.map_nil, List.append_nil] at hid
    exact ⟨hid, hname ▸ hfetch.trans happly⟩
  cases relating with
  | equalTo target =>
    cases target with
    | place p => exact toAnchor .equal p.anchor p.offset .equality
    | number value => exact host_apply j _ _
  | greaterThanOrEqualTo p => exact toAnchor .greaterOrEqual p.anchor p.offset _
  | lessThanOrEqualTo p => exact toAnchor .lessOrEqual p.anchor p.offset _
  | explicit relation anchor offset => exact toAnchor relation anchor offset _
  | equalConstant value => exact host_apply j _ _

/-- What statements answer when the first makes the constraint `c` and each makes one. -/
def outcomesFrom (c : ConstraintId) (statements : List (Statement K)) :
    List (Outcome RecordedAnchor ConstraintId) :=
  statements.mapIdx fun i st => if st.kept then .constraint (c + i) else .discarded

/-- A statement makes one constraint, activates it once and reports its relation; the caller gets the
constraint if it was kept. -/
theorem host_runEntry {j : Journal K} {view : ViewId} {cache : Cache RecordedAnchor}
    (h : CacheOf j view cache) (st : Statement K) :
    ∃ cache' j', host.runEntry view cache (.statement st) j =
        ((if st.kept then .constraint j.constraints.length else .discarded, cache'), j') ∧
      CacheOf j' view cache' ∧
      Wrote j j' [st.call j.nameOf view] [st.relating.report] := by
  obtain ⟨a, cache', j', hread, hname, h', hlook⟩ := host_readProperty h st.property
  obtain ⟨hid, hmade⟩ := host_applyRelating j' a st.relating
  have hwrote := hlook.trans hmade
  rw [hlook.nameOf, hname] at hwrote
  rw [hlook.constraints, List.map_nil, List.append_nil] at hid
  refine ⟨cache', (host.applyRelating a st.relating j').2, ?_, ?_, hwrote⟩
  · unfold Host.runEntry
    show (host.applyRelating (host.readProperty view st.property cache j).1.1 st.relating >>=
      fun c => pure (if st.kept then Outcome.constraint c else .discarded,
        (host.readProperty view st.property cache j).1.2))
      (host.readProperty view st.property cache j).2 = _
    rw [hread, ← hid]
    rfl
  · intro p b hp
    rw [hwrote.nameOf]
    exact h' p b hp

/-- Statements are carried out in order. The induction is on their list, over all caches that hold the
anchors of the view, since each statement may add to the cache. -/
theorem host_runEntries (view : ViewId) (statements : List (Statement K)) :
    ∀ {j : Journal K} {cache : Cache RecordedAnchor}, CacheOf j view cache →
      (host.runEntries view cache (statements.map Entry.statement) j).1 =
          outcomesFrom j.constraints.length statements ∧
        Wrote j (host.runEntries view cache (statements.map Entry.statement) j).2
          (statements.map (Statement.call j.nameOf view))
          (statements.map fun st => st.relating.report) := by
  induction statements with
  | nil => intro j _ _; exact ⟨rfl, .refl j⟩
  | cons st rest ih =>
    intro j cache h
    obtain ⟨cache', j', hentry, h', hwrote⟩ := host_runEntry h st
    obtain ⟨houtcomes, hrest⟩ := ih h'
    have hrun : host.runEntries view cache ((st :: rest).map Entry.statement) j =
        ((if st.kept then .constraint j.constraints.length else .discarded) ::
            (host.runEntries view cache' (rest.map Entry.statement) j').1,
          (host.runEntries view cache' (rest.map Entry.statement) j').2) := by
      rw [List.map_cons, Host.runEntries]
      show (host.runEntries view (host.runEntry view cache (.statement st) j).1.2
          (rest.map Entry.statement) >>=
        fun outcomes => pure ((host.runEntry view cache (.statement st) j).1.1 :: outcomes))
        (host.runEntry view cache (.statement st) j).2 = _
      rw [hentry]
      rfl
    rw [hrun, houtcomes]
    refine ⟨?_, ?_⟩
    · simp only [outcomesFrom, List.mapIdx_cons, hwrote.constraints, List.length_append,
        List.map_cons, List.map_nil, List.length_cons, List.length_nil,
        Nat.add_zero, Nat.zero_add, Nat.add_assoc, Nat.add_comm 1]
    · rw [hwrote.nameOf] at hrest
      exact hwrote.trans hrest

/-- A block over the recorder: one write of the flag, then the constraints its statements ask for. -/
theorem host_layout (j : Journal K) (view : ViewId) (statements : List (Statement K)) :
    (host.layout view (statements.map Entry.statement) j).1 =
        outcomesFrom j.constraints.length statements ∧
      Wrote { j with flagWrites := j.flagWrites ++ [false] }
        (host.layout view (statements.map Entry.statement) j).2
        (statements.map (Statement.call j.nameOf view))
        (statements.map fun st => st.relating.report) := by
  have empty (j : Journal K) : CacheOf j view {} := by
    intro p a h
    simp [Cache.get?] at h
  exact host_runEntries view statements (empty { j with flagWrites := j.flagWrites ++ [false] })

/-- A block writes the flag once, to release its view, and asks for one constraint for each
statement, in order: the one that the statement is lowered to, with the anchor of the statement's
property on its left. On return each of these constraints is active and was activated once, and they
are what the statements that keep theirs answer with. Nothing made before is touched. -/
theorem layout_lowered (j : Journal K) (view : ViewId) (statements : List (Statement K)) :
    ∃ calls : List (Relationship K),
      List.Forall₂ (fun (st : Statement K) call =>
          recordedText (j.nameOf (st.property.anchor view)) =
              j.views[view]?.getD "" ++ "." ++ st.property.path ∧
            Lowered j.nameOf (j.nameOf (st.property.anchor view)) st.relating call)
        statements calls ∧
      (host.layout view (statements.map Entry.statement) j).2.constraints =
        j.constraints ++
          calls.map (fun call => { relationship := call, active := true, activations := 1 }) ∧
      (host.layout view (statements.map Entry.statement) j).2.flagWrites =
        j.flagWrites ++ [false] ∧
      (host.layout view (statements.map Entry.statement) j).1 =
        statements.mapIdx fun i st =>
          if st.kept then .constraint (j.constraints.length + i) else .discarded := by
  obtain ⟨houtcomes, hwrote⟩ := host_layout j view statements
  refine ⟨statements.map (Statement.call j.nameOf view), ?_, hwrote.constraints,
    hwrote.flagWrites, houtcomes⟩
  rw [List.forall₂_map_right_iff, List.forall₂_same]
  intro st _
  exact ⟨recordedText_nameOf j view st.property, lowered_iff.2 rfl⟩

end Journal

end ViewConstraints.Layout

import ViewConstraints.Layout.Statement

/-!
# Layout blocks and their hosts

A layout block is run against a host, which owns views, anchors and constraints. `Host` lists the
few requests that a block makes of it; everything else about a block is decided here: that the
view's own frame constraints are dropped first, that each property is read at most once and the safe
area's guide just before its first use, that the property is read before the target, and that every
constraint is activated as soon as it is made.
-/

namespace ViewConstraints.Layout

/-- The report of an applied relation. -/
inductive Applied (K : Type) where
  /-- An equality with a place or a number, whose distance is not reported. -/
  | equality
  /-- A relation to an anchor at a distance. -/
  | distance (relation : Relation) (offset : K)
  /-- An equality with an explicit number. -/
  | number (value : K)
  deriving DecidableEq, Repr

namespace Applied

/-- The sign of the relation. -/
def sign {K : Type} : Applied K → String
  | equality => Relation.equal.symbol
  | distance relation _ => relation.symbol
  | number _ => "="

/-- The distance or number reported with the relation. -/
def constant? {K : Type} : Applied K → Option K
  | equality => none
  | distance _ offset => some offset
  | number value => some value

end Applied

/-- What a layout block asks of the engine it runs on, which has states `S`, anchors `A` and
constraints `C`. -/
structure Host (S A C K : Type) where
  /-- Looks up the safe-area guide of a view. -/
  readGuide : ViewId → StateM S Unit
  /-- Looks up an anchor of a view or of its guide. -/
  readAnchor : Anchor → StateM S A
  /-- Makes an inactive constraint between two anchors. -/
  relate : A → Relation → A → K → StateM S C
  /-- Makes an inactive constraint that fixes an anchor. -/
  relateNumber : A → K → StateM S C
  /-- Makes a constraint active or inactive. -/
  setActive : C → Bool → StateM S Unit
  /-- Turns the constraints that keep a view at its own frame on or off. -/
  setPinned : ViewId → Bool → StateM S Unit
  /-- Takes note of an applied relation. -/
  report : Applied K → StateM S Unit

/-- The properties of one view that a block has read, with their anchors. -/
structure Cache (A : Type) where
  guideRead : Bool := false
  anchors : List (Property × A) := []

/-- The anchor cached for a property. -/
def Cache.get? {A : Type} (c : Cache A) (p : Property) : Option A := c.anchors.lookup p

/-- What holds of all anchors that are cached holds with one more of which it holds. -/
theorem Cache.forall_cons {A : Type} {P : Property → A → Prop} {c : Cache A}
    (h : ∀ q b, c.get? q = some b → P q b) (guideRead : Bool) {p : Property} {a : A} (ha : P p a) :
    ∀ q b, Cache.get? ⟨guideRead, (p, a) :: c.anchors⟩ q = some b → P q b := by
  intro q b hq
  rw [Cache.get?, List.lookup_cons] at hq
  cases hqp : q == p with
  | true =>
    rw [hqp] at hq
    cases hq
    exact eq_of_beq hqp ▸ ha
  | false =>
    rw [hqp] at hq
    exact h q b hq

/-- What running an entry of a block gives. -/
inductive Outcome (A C : Type) where
  /-- The anchors that two reads of a property gave. -/
  | anchors (first second : A)
  /-- The constraint that a statement made. -/
  | constraint (constraint : C)
  /-- Nothing, for a statement that does not keep its constraint. -/
  | discarded

namespace Host

variable {S A C K : Type} [Scalar K] (h : Host S A C K)

/-- Looks up an anchor from scratch, through its view's guide if it is one of the safe area. -/
def fetch (a : Anchor) : StateM S A := do
  if a.safe then h.readGuide a.view
  h.readAnchor a

/-- Activates a new constraint and reports the relation. -/
def apply (c : C) (report : Applied K) : StateM S C := do
  h.setActive c true
  h.report report
  return c

/-- Relates an anchor to another at a distance. -/
def applyOffset (lhs : A) (relation : Relation) (anchor : Anchor) (offset : K) : StateM S C := do
  let rhs ← h.fetch anchor
  let c ← h.relate lhs relation rhs offset
  h.apply c (.distance relation offset)

/-- Makes and activates the constraint that `lhs` is related as written. -/
def applyRelating (lhs : A) : Relating K → StateM S C
  | .equalTo (.place p) => do
    let rhs ← h.fetch p.anchor
    let c ← h.relate lhs .equal rhs p.offset
    h.apply c .equality
  | .equalTo (.number value) => do
    let c ← h.relateNumber lhs value
    h.apply c .equality
  | .greaterThanOrEqualTo p => h.applyOffset lhs .greaterOrEqual p.anchor p.offset
  | .lessThanOrEqualTo p => h.applyOffset lhs .lessOrEqual p.anchor p.offset
  | .explicit relation anchor offset => h.applyOffset lhs relation anchor offset
  | .equalConstant value => do
    let c ← h.relateNumber lhs value
    h.apply c (.number value)

/-- Reads a property of a view through the cache. -/
def readProperty (view : ViewId) (p : Property) (cache : Cache A) : StateM S (A × Cache A) := do
  match cache.get? p with
  | some a => return (a, cache)
  | none =>
    if p.isSafe && !cache.guideRead then h.readGuide view
    let a ← h.readAnchor (p.anchor view)
    return (a, ⟨cache.guideRead || p.isSafe, (p, a) :: cache.anchors⟩)

/-- Runs one entry of a block. -/
def runEntry (view : ViewId) (cache : Cache A) :
    Entry K → StateM S (Outcome A C × Cache A)
  | .read p => do
    let (first, cache) ← h.readProperty view p cache
    let (second, cache) ← h.readProperty view p cache
    return (.anchors first second, cache)
  | .statement s => do
    let (lhs, cache) ← h.readProperty view s.property cache
    let c ← h.applyRelating lhs s.relating
    return (if s.kept then .constraint c else .discarded, cache)

/-- Runs the entries of a block in order. -/
def runEntries (view : ViewId) (cache : Cache A) : List (Entry K) → StateM S (List (Outcome A C))
  | [] => return []
  | e :: rest => do
    let (outcome, cache) ← h.runEntry view cache e
    let outcomes ← runEntries view cache rest
    return outcome :: outcomes

/-- Runs a layout block on a view. The view stops being held at its frame before the first entry. -/
def layout (view : ViewId) (entries : List (Entry K)) : StateM S (List (Outcome A C)) := do
  h.setPinned view false
  h.runEntries view {} entries

/-- Relates an anchor outside any block: the anchor is looked up first, then the target. -/
def relateAnchor (lhs : Anchor) (relating : Relating K) : StateM S C := do
  let lhs ← h.fetch lhs
  h.applyRelating lhs relating

end Host

end ViewConstraints.Layout

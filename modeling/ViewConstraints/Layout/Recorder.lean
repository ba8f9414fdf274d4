import ViewConstraints.Layout.Host
import ViewConstraints.Relationship

/-!
# A host that records

`Journal.host` solves nothing: it writes down every request a layout block makes, in order. Anchors
are numbered as they are looked up, so two equal serials are the same look-up, and every constraint
counts how often it was activated.
-/

namespace ViewConstraints.Layout

/-- An anchor as it was looked up. -/
structure RecordedAnchor where
  name : AnchorName
  /-- The number of look-ups before this one. -/
  serial : Nat
  deriving DecidableEq, Repr

/-- A constraint as it was made, with its activity. -/
structure RecordedConstraint (K : Type) where
  relationship : Relationship K
  active : Bool := false
  /-- How often the constraint was made active. -/
  activations : Nat := 0
  deriving Repr

/-- Everything that was asked of a recording host. -/
structure Journal (K : Type) where
  /-- The names of the views. -/
  views : List String
  /-- The constraints, in the order they were made. -/
  constraints : List (RecordedConstraint K) := []
  /-- The anchors looked up, in order. -/
  anchorReads : List AnchorName := []
  /-- How many guides were looked up. -/
  guideReads : Nat := 0
  /-- The values given to the flag that holds a view at its frame. -/
  flagWrites : List Bool := []
  /-- The relations reported. -/
  reports : List (Applied K) := []

/-- A name as the recorder writes it. -/
def recordedText (n : AnchorName) : String := n.dotted "safe"

namespace Journal

variable {K : Type}

/-- What the constraints say, in the order they were made. -/
def calls (j : Journal K) : List (Relationship K) :=
  j.constraints.map RecordedConstraint.relationship

/-- The name of an anchor; a view that does not exist has no name. -/
def nameOf (j : Journal K) (a : Anchor) : AnchorName :=
  ⟨j.views[a.view]?.getD "", a.feature, a.safe⟩

/-- Looks up an anchor and gives it the next serial. -/
def readAnchor (a : Anchor) : StateM (Journal K) RecordedAnchor := fun j =>
  (⟨j.nameOf a, j.anchorReads.length⟩, { j with anchorReads := j.anchorReads ++ [j.nameOf a] })

/-- Makes a constraint, which is inactive at first. -/
def record (r : Relationship K) : StateM (Journal K) ConstraintId := fun j =>
  (j.constraints.length, { j with constraints := j.constraints ++ [{ relationship := r }] })

/-- Sets the activity of a constraint, whether or not it changes. -/
def setActive (c : ConstraintId) (active : Bool) : StateM (Journal K) Unit := fun j =>
  ((), { j with constraints := j.constraints.modify c fun r =>
    { r with active, activations := if active then r.activations + 1 else r.activations } })

/-- The recorder as a host of layout blocks. -/
def host : Host (Journal K) RecordedAnchor ConstraintId K where
  readGuide _ := modify fun j => { j with guideReads := j.guideReads + 1 }
  readAnchor := readAnchor
  relate lhs relation rhs offset := record (.between lhs.name relation rhs.name offset)
  relateNumber lhs value := record (.fixed lhs.name value)
  setActive := setActive
  setPinned _ enabled := modify fun j => { j with flagWrites := j.flagWrites ++ [enabled] }
  report a := modify fun j => { j with reports := j.reports ++ [a] }

end Journal

end ViewConstraints.Layout

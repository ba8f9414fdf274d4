import ViewConstraints.Anchor
import ViewConstraints.Decimal.Shortest
import ViewConstraints.Relation

/-!
# Relationships

A relationship is what a constraint says, with anchors by name: that one anchor stands in a relation
to another at a distance, or that an anchor has a fixed value. `Relationship.text` is its
description, for instance `card.leading == root.leading + 16`.
-/

namespace ViewConstraints

/-- What a constraint says. -/
inductive Relationship (K : Type) where
  /-- `lhs` stands in `relation` to `rhs` plus `offset`. -/
  | between (lhs : AnchorName) (relation : Relation) (rhs : AnchorName) (offset : K)
  /-- `lhs` has the value `value`. -/
  | fixed (lhs : AnchorName) (value : K)
  deriving DecidableEq, Repr

namespace Relationship

/-- An offset as a signed summand; an offset equal to zero is not written. -/
def offsetText (offset : Float) : String :=
  if offset == 0.0 then ""
  else if offset < 0.0 then " - " ++ Decimal.shortest (-offset)
  else " + " ++ Decimal.shortest offset

/-- The description of a constraint. -/
def text : Relationship Float → String
  | between lhs relation rhs offset =>
    lhs.text ++ " " ++ relation.symbol ++ " " ++ rhs.text ++ offsetText offset
  | fixed lhs value => lhs.text ++ " == " ++ Decimal.shortest value

end Relationship

end ViewConstraints

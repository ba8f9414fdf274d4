import ViewConstraints.Anchor
import ViewConstraints.Relation

/-!
# Layout statements

What can be written about a view: that one of its twelve named properties stands in a relation to a
target. A target is an anchor with a chain of offsets, or a number. The relation can be written in
several forms, which differ in how the distance is given and in what they report.
-/

namespace ViewConstraints.Layout

/-- The named properties of a view under layout. The edges can also be taken of the safe area. -/
inductive Property where
  | leading
  | safeLeading
  | trailing
  | safeTrailing
  | top
  | safeTop
  | bottom
  | safeBottom
  | width
  | height
  | centerX
  | centerY
  deriving DecidableEq, Repr

namespace Property

/-- The feature a property reads. -/
def feature : Property → Feature
  | leading | safeLeading => .leading
  | trailing | safeTrailing => .trailing
  | top | safeTop => .top
  | bottom | safeBottom => .bottom
  | width => .width
  | height => .height
  | centerX => .centerX
  | centerY => .centerY

/-- Whether a property reads the safe area. -/
def isSafe : Property → Bool
  | safeLeading | safeTrailing | safeTop | safeBottom => true
  | _ => false

/-- The anchor a property of a view stands for. -/
def anchor (p : Property) (view : ViewId) : Anchor := ⟨view, p.feature, p.isSafe⟩

end Property

/-- One step of an offset chain: an amount added or taken off. -/
inductive Shift (K : Type) where
  | plus (amount : K)
  | minus (amount : K)
  deriving DecidableEq, Repr

/-- An anchor and the steps by which it is offset, first to last. -/
structure Place (K : Type) where
  anchor : Anchor
  shifts : List (Shift K) := []
  deriving Repr

variable {K : Type} [Scalar K]

namespace Shift

/-- The offset of an anchor moved once. -/
def first : Shift K → K
  | plus c => c
  | minus c => -c

/-- An offset moved once more. -/
def apply (offset : K) : Shift K → K
  | plus c => offset + c
  | minus c => offset - c

/-- The offset of a chain; the empty chain has none. -/
def total? : List (Shift K) → Option K
  | [] => none
  | s :: rest => some (rest.foldl apply s.first)

end Shift

/-- The distance a place keeps from its anchor, which is zero for a bare anchor. -/
def Place.offset (p : Place K) : K := (Shift.total? p.shifts).getD 0.0

/-- The right side of an equality: a place, or a number for an extent. -/
inductive Target (K : Type) where
  | place (place : Place K)
  | number (value : K)
  deriving Repr

/-- A relation of a property to something, in the form it was written. -/
inductive Relating (K : Type) where
  /-- Equal to a place or a number. -/
  | equalTo (target : Target K)
  /-- At least a place. -/
  | greaterThanOrEqualTo (place : Place K)
  /-- At most a place. -/
  | lessThanOrEqualTo (place : Place K)
  /-- In a relation to an anchor, at an explicit distance. -/
  | explicit (relation : Relation) (anchor : Anchor) (offset : K)
  /-- Equal to an explicit number. -/
  | equalConstant (value : K)
  deriving Repr

/-- A property related to something. A statement written as an infix relation does not keep the
constraint it makes. -/
structure Statement (K : Type) where
  property : Property
  relating : Relating K
  kept : Bool
  deriving Repr

/-- A line of a layout block: a statement, or a property read twice for its own sake. -/
inductive Entry (K : Type) where
  | read (property : Property)
  | statement (statement : Statement K)
  deriving Repr

end ViewConstraints.Layout

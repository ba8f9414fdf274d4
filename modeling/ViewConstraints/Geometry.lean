import ViewConstraints.Scalar

/-!
# Rectangles, sizes and insets

The geometry exchanged with a layout engine. Equality of these values is numeric and field by field,
so a rectangle that holds a NaN differs from itself and the two zeros are equal.
-/

namespace ViewConstraints

/-- A frame in the coordinate system of the root view. -/
structure Rect (K : Type) where
  x : K
  y : K
  width : K
  height : K
  deriving BEq

/-- The extent of a rectangle. -/
structure Size (K : Type) where
  width : K
  height : K
  deriving BEq

/-- Distances from each edge of a view to its safe area. -/
structure Insets (K : Type) where
  top : K
  leading : K
  bottom : K
  trailing : K
  deriving BEq

variable {K : Type} [Scalar K]

/-- The empty size. -/
def Size.zero : Size K := ⟨0.0, 0.0⟩

/-- Insets that leave a rectangle as it is. -/
def Insets.zero : Insets K := ⟨0.0, 0.0, 0.0, 0.0⟩

namespace Rect

/-- The empty rectangle at the origin. -/
def zero : Rect K := ⟨0.0, 0.0, 0.0, 0.0⟩

/-- The right edge. -/
def maxX (r : Rect K) : K := r.x + r.width

/-- The bottom edge. -/
def maxY (r : Rect K) : K := r.y + r.height

/-- The extent of a rectangle, without its position. -/
def size (r : Rect K) : Size K := ⟨r.width, r.height⟩

/-- Moves every edge inwards by its inset. The leading and top insets are taken off first. -/
def insetBy (r : Rect K) (i : Insets K) : Rect K :=
  ⟨r.x + i.leading, r.y + i.top, r.width - i.leading - i.trailing, r.height - i.top - i.bottom⟩

end Rect

end ViewConstraints

import ViewConstraints.Geometry
import ViewConstraints.Handle
import ViewConstraints.Linear.Expression
import ViewConstraints.Text.Quoted

/-!
# Anchors

An anchor is an edge, a center or an extent of a view, or of the view's safe area. It stands for a
linear expression over the unknowns of the view (`Anchor.expression`); the safe area is the frame of
the view shrunk by its insets, which enter the expression as constants.
-/

namespace ViewConstraints

open Linear

/-- What an anchor of a view measures. -/
inductive Feature where
  | leading
  | trailing
  | centerX
  | top
  | bottom
  | centerY
  | width
  | height
  deriving DecidableEq, Repr

/-- The kinds of anchors; only anchors of one kind can be related. -/
inductive AnchorKind where
  | horizontal
  | vertical
  | dimension
  deriving DecidableEq, Repr

namespace Feature

/-- The name of a feature in the names of anchors. -/
def name : Feature → String
  | leading => "leading"
  | trailing => "trailing"
  | centerX => "centerX"
  | top => "top"
  | bottom => "bottom"
  | centerY => "centerY"
  | width => "width"
  | height => "height"

/-- The kind of the anchors with this feature. -/
def kind : Feature → AnchorKind
  | leading | trailing | centerX => .horizontal
  | top | bottom | centerY => .vertical
  | width | height => .dimension

end Feature

/-- A feature of a view, or of its safe area. -/
structure Anchor where
  view : ViewId
  feature : Feature
  /-- Whether the anchor belongs to the safe area. -/
  safe : Bool
  deriving DecidableEq, Repr

/-- An anchor as text names it: with the name of its view. -/
structure AnchorName where
  view : String
  feature : Feature
  safe : Bool
  deriving DecidableEq, Repr

/-- A name in dotted form, with `guide` for the safe area. -/
def AnchorName.dotted (n : AnchorName) (guide : String) : String :=
  if n.safe then n.view ++ "." ++ guide ++ "." ++ n.feature.name
  else n.view ++ "." ++ n.feature.name

/-- A name as descriptions of constraints write it. -/
def AnchorName.text (n : AnchorName) : String := n.dotted "safeArea"

/-- An anchor for diagnostics: its name with its kind. -/
def AnchorName.inspect (n : AnchorName) : String :=
  let kind := match n.feature.kind with
    | .horizontal => "XAxisAnchor"
    | .vertical => "YAxisAnchor"
    | .dimension => "DimensionAnchor"
  kind ++ "(" ++ n.text ++ ")"

/-- An anchor that is about to be related, for diagnostics. -/
def AnchorName.inspectProperty (n : AnchorName) : String :=
  Text.record "LayoutProperty" [("anchor", n.inspect)]

namespace Anchor

variable {K : Type} [Scalar K]

/-- The insets that apply to an anchor: those of its view for the safe area, and none otherwise. -/
def insets (a : Anchor) (i : Insets K) : Insets K := if a.safe then i else .zero

/-- The expression an anchor stands for when its view has the insets `i`. -/
def expression (a : Anchor) (i : Insets K) : Expression K :=
  let i := a.insets i
  let unknown (q : Quantity) : Expression K := .ofVariable ⟨a.view, q⟩
  let left := (unknown .left).addConstant i.leading
  let top := (unknown .top).addConstant i.top
  let width := ((unknown .width).subConstant i.leading).subConstant i.trailing
  let height := ((unknown .height).subConstant i.top).subConstant i.bottom
  match a.feature with
  | .leading => left
  | .trailing => left.add width
  | .centerX => left.add (width.scale 0.5)
  | .top => top
  | .bottom => top.add height
  | .centerY => top.add (height.scale 0.5)
  | .width => width
  | .height => height

end Anchor

/-- The number that a feature is of a rectangle. -/
def Rect.feature {K : Type} [Scalar K] (r : Rect K) : Feature → K
  | .leading => r.x
  | .trailing => r.maxX
  | .centerX => r.x + r.width * 0.5
  | .top => r.y
  | .bottom => r.maxY
  | .centerY => r.y + r.height * 0.5
  | .width => r.width
  | .height => r.height

end ViewConstraints

import ViewConstraints.Proofs.Scene.Demands

/-!
# Anchors and frames have one geometry

The expressions of anchors and the arithmetic of rectangles are written apart. They say the same: at
any rectangles of the views, the expression of an anchor is the edge, center or extent that one
measures on the rectangle of its view, or on that rectangle shrunk by the insets, which is what the
frame of a safe area is. So a constraint between anchors holds where the numbers measured stand in
its relation, of two views or of one (`Scene.expressions_measure_frames`).

Centers are measured as midpoints of edges here, while an expression adds half an extent to an edge.
-/

namespace ViewConstraints

open Linear

/-- The edge, center or extent of a rectangle that a feature names. -/
def Rect.measure (r : Rect Rat) : Feature → Rat
  | .leading => r.x
  | .trailing => r.maxX
  | .centerX => (r.x + r.maxX) / 2
  | .top => r.y
  | .bottom => r.maxY
  | .centerY => (r.y + r.maxY) / 2
  | .width => r.width
  | .height => r.height

/-- The assignment of numbers to the unknowns that gives every view its rectangle. -/
def assigning (rects : ViewId → Rect Rat) (v : Variable) : Rat :=
  (rects v.view).component v.quantity

/-- The rectangle that the anchors of a view, or of its safe area at the insets `i`, are about. -/
def Anchor.bounds (a : Anchor) (i : Insets Rat) (r : Rect Rat) : Rect Rat :=
  if a.safe then r.insetBy i else r

theorem half_literal : (0.5 : Rat) = 1 / 2 := by norm_num

/-- The numbers that features read off a rectangle are its measures. -/
theorem Rect.feature_eq_measure (r : Rect Rat) (f : Feature) : r.feature f = r.measure f := by
  cases f with
  | centerX =>
    rw [feature, measure, maxX, half_literal]
    ring
  | centerY =>
    rw [feature, measure, maxY, half_literal]
    ring
  | leading | trailing | top | bottom | width | height => rfl

theorem rectOf_assigning (rects : ViewId → Rect Rat) (view : ViewId) :
    rectOf (assigning rects) view = rects view := rfl

/-- Each edge moves inwards by its own inset. -/
theorem Rect.insetBy_edges (r : Rect Rat) (i : Insets Rat) :
    (r.insetBy i).x = r.x + i.leading ∧ (r.insetBy i).maxX = r.maxX - i.trailing ∧
      (r.insetBy i).y = r.y + i.top ∧ (r.insetBy i).maxY = r.maxY - i.bottom := by
  refine ⟨rfl, ?_, rfl, ?_⟩
  · rw [maxX, maxX, insetBy]
    ring
  · rw [maxY, maxY, insetBy]
    ring

/-- The expression of an anchor is what one measures on the rectangle that it is about. -/
theorem Anchor.expression_measures (rects : ViewId → Rect Rat) (a : Anchor) (i : Insets Rat) :
    (a.expression i).eval (assigning rects) = (a.bounds i (rects a.view)).measure a.feature := by
  rw [expression_eval, rectOf_assigning, reads, Rect.feature_eq_measure, bounds]

/-- The safe area of a card that is 100 wide from 10 on, between 12 and 102. -/
example : ((⟨1, .centerX, true⟩ : Anchor).expression ⟨1, 2, 3, 8⟩).eval
    (assigning fun _ => ⟨10, 20, 100, 50⟩) = 57 := by decide +kernel

namespace Scene

/-- What one measures on the rectangle of an anchor at the present insets of its view. -/
def measured (s : Scene Rat) (rects : ViewId → Rect Rat) (a : Anchor) : Rat :=
  (a.bounds (s.insets a.view) (rects a.view)).measure a.feature

/-- The expression of an anchor gives what one measures on the rectangle of its view, shrunk by the
insets for an anchor of the safe area. -/
theorem expressionOf_measures (s : Scene Rat) (rects : ViewId → Rect Rat) (a : Anchor) :
    (s.expressionOf a).eval (assigning rects) = s.measured rects a :=
  a.expression_measures rects (s.insets a.view)

/-- At any rectangles of the views, the expression of a plain anchor is the edge, center or extent
of the rectangle of its view, and that of a safe-area anchor the same of this rectangle with each
edge moved inwards by its inset; with the present insets and at the present frames, that is of the
frame of the safe area. A constraint made between two anchors, of one view or of two, holds at these
rectangles exactly if the numbers measured stand in its relation at its distance, and one that fixes
an anchor exactly if the number measured is the one it asks for. -/
theorem expressions_measure_frames (s : Scene Rat) (rects : ViewId → Rect Rat) :
    (∀ (view : ViewId) (f : Feature) (i : Insets Rat),
      ((⟨view, f, false⟩ : Anchor).expression i).eval (assigning rects) = (rects view).measure f ∧
      ((⟨view, f, true⟩ : Anchor).expression i).eval (assigning rects) =
        ((rects view).insetBy i).measure f ∧
      ((rects view).insetBy i).x = (rects view).x + i.leading ∧
      ((rects view).insetBy i).maxX = (rects view).maxX - i.trailing ∧
      ((rects view).insetBy i).y = (rects view).y + i.top ∧
      ((rects view).insetBy i).maxY = (rects view).maxY - i.bottom) ∧
    (∀ (view : ViewId) (f : Feature),
      (s.expressionOf ⟨view, f, true⟩).eval (assigning fun v => (s.frame v).1) =
        (s.safeFrame view).1.measure f) ∧
    (∀ lhs relation rhs offset, ∃ r : AnchorConstraint Rat,
      (s.relate lhs relation rhs offset).2.constraints = s.constraints ++ [r] ∧
      (r.linear.Holds (assigning rects) ↔
        relation.Relates (s.measured rects lhs) (s.measured rects rhs + offset))) ∧
    ∀ lhs value, ∃ r : AnchorConstraint Rat,
      (s.relateNumber lhs value).2.constraints = s.constraints ++ [r] ∧
      (r.linear.Holds (assigning rects) ↔ s.measured rects lhs = value) := by
  refine ⟨fun view f i => ⟨?_, ?_, (rects view).insetBy_edges i⟩, fun view f => ?_, ?_, ?_⟩
  · exact Anchor.expression_measures rects ⟨view, f, false⟩ i
  · exact Anchor.expression_measures rects ⟨view, f, true⟩ i
  · rw [expressionOf_measures, safeFrame_eq]
    rfl
  · intro lhs relation rhs offset
    refine ⟨_, rfl, ?_⟩
    rw [Constraint.relating_holds, Expression.eval_addConstant]
    exact iff_of_eq (congrArg₂ (fun p q => relation.Relates p (q + offset))
      (s.expressionOf_measures rects lhs) (s.expressionOf_measures rects rhs))
  · intro lhs value
    refine ⟨_, rfl, ?_⟩
    rw [Constraint.equalling_holds]
    exact iff_of_eq (congrArg (· = value) (s.expressionOf_measures rects lhs))

end Scene

end ViewConstraints

import Mathlib.Algebra.Field.Rat
import Mathlib.Algebra.Order.Ring.Unbundled.Rat
import Mathlib.Tactic.Linarith
import Mathlib.Tactic.NormNum
import Mathlib.Tactic.Ring
import ViewConstraints.Anchor
import ViewConstraints.Linear.Constraint

/-!
# What anchors and constraints mean

Over exact fractions an expression is a linear function of the unknowns, and the expression of an
anchor gives the number that one reads off the rectangle of its view, shrunk by the insets if the
anchor belongs to the safe area (`Anchor.expression_eval`). A constraint made from two such
expressions holds where the numbers stand in its relation (`Constraint.relating_holds`), whether or
not the two share unknowns.
-/

namespace ViewConstraints

open Linear

theorem zero_literal : (0.0 : Rat) = 0 := by norm_num

theorem one_literal : (1.0 : Rat) = 1 := by norm_num

/-- How two numbers stand in a relation. -/
def Relation.Relates : Relation → Rat → Rat → Prop
  | .equal, p, q => p = q
  | .greaterOrEqual, p, q => p ≥ q
  | .lessOrEqual, p, q => p ≤ q

/-- The rectangle of a view by an assignment of numbers to the unknowns. -/
def rectOf {K : Type} (x : Variable → K) (view : ViewId) : Rect K :=
  ⟨x ⟨view, .left⟩, x ⟨view, .top⟩, x ⟨view, .width⟩, x ⟨view, .height⟩⟩

/-- The number an anchor reads off a rectangle of its view, when the view has the insets `i`. -/
def Anchor.reads {K : Type} [Scalar K] (a : Anchor) (i : Insets K) (r : Rect K) : K :=
  (if a.safe then r.insetBy i else r).feature a.feature

namespace Linear.Expression

variable (x : Variable → Rat)

/-- An expression as a sum. -/
theorem eval_eq_sum (e : Expression Rat) :
    e.eval x = (e.terms.map fun t => t.coefficient * x t.unknown).sum + e.constant := by
  obtain ⟨terms, constant⟩ := e
  unfold eval
  induction terms with
  | nil => exact (zero_add constant).symm
  | cons t terms ih => rw [List.foldr_cons, ih, List.map_cons, List.sum_cons, add_assoc]

/-- The expression of one unknown is the unknown with the coefficient one, and has its value. -/
theorem eval_ofVariable (v : Variable) : (ofVariable v : Expression Rat).eval x = x v := by
  simp only [eval, ofVariable, List.foldr_cons, List.foldr_nil, zero_literal, one_literal, one_mul,
    add_zero]

/-- Adding a constant to an expression adds it to the value. -/
theorem eval_addConstant (e : Expression Rat) (c : Rat) :
    (e.addConstant c).eval x = e.eval x + c := by
  rw [eval_eq_sum, eval_eq_sum, addConstant, add_assoc]

theorem eval_subConstant (e : Expression Rat) (c : Rat) :
    (e.subConstant c).eval x = e.eval x - c := by
  rw [eval_eq_sum, eval_eq_sum, subConstant, add_sub_assoc]

/-- A sum of expressions has the sum of their values, terms of the same unknown included. -/
theorem eval_add (a b : Expression Rat) : (a.add b).eval x = a.eval x + b.eval x := by
  rw [eval_eq_sum, eval_eq_sum x a, eval_eq_sum x b, add, List.map_append, List.sum_append]
  ring

/-- The negated expression has the negated value: every coefficient and the constant turn
their signs. -/
theorem eval_neg (e : Expression Rat) : e.neg.eval x = -e.eval x := by
  obtain ⟨terms, constant⟩ := e
  rw [eval_eq_sum, eval_eq_sum, neg]
  induction terms with
  | nil => simp
  | cons t terms ih =>
    simp only [List.map_cons, List.sum_cons] at ih ⊢
    linarith

/-- A difference is the sum with the negated expression, so it has the difference of the values. -/
theorem eval_sub (a b : Expression Rat) : (a.sub b).eval x = a.eval x - b.eval x := by
  rw [sub, eval_add, eval_neg, sub_eq_add_neg]

/-- Scaling an expression multiplies its coefficients and its constant, and so its value. -/
theorem eval_scale (e : Expression Rat) (c : Rat) : (e.scale c).eval x = e.eval x * c := by
  obtain ⟨terms, constant⟩ := e
  rw [eval_eq_sum, eval_eq_sum, scale]
  induction terms with
  | nil => simp
  | cons t terms ih =>
    simp only [List.map_cons, List.sum_cons] at ih ⊢
    linarith

end Linear.Expression

/-- The expression of an anchor gives what the anchor reads off the rectangle of its view. -/
theorem Anchor.expression_eval (x : Variable → Rat) (a : Anchor) (i : Insets Rat) :
    (a.expression i).eval x = a.reads i (rectOf x a.view) := by
  obtain ⟨view, feature, safe⟩ := a
  have none (y : Rat) : y + 0 = y ∧ y - 0 = y := ⟨add_zero y, sub_zero y⟩
  cases feature <;> cases safe <;>
    simp only [expression, reads, insets, rectOf, Rect.insetBy, Rect.feature, Rect.maxX, Rect.maxY,
      Insets.zero, Expression.eval_add, Expression.eval_scale, Expression.eval_addConstant,
      Expression.eval_subConstant, Expression.eval_ofVariable, zero_literal, none, if_true, if_false,
      Bool.false_eq_true]

namespace Linear

/-- A difference compares with zero as the numbers compare with each other. -/
theorem compareZero_sub (p q : Rat) (relation : Relation) :
    compareZero (p - q) relation ↔ relation.Relates p q := by
  cases relation with
  | equal => rw [compareZero, zero_literal, sub_eq_zero, Relation.Relates]
  | greaterOrEqual => rw [compareZero, zero_literal, not_lt, sub_nonneg, Relation.Relates]
  | lessOrEqual => rw [compareZero, zero_literal, not_lt, sub_nonpos, Relation.Relates]

namespace Constraint

variable (x : Variable → Rat) (id : Nat) (priority : Priority)

/-- A constraint between two expressions holds exactly if their values stand in its relation; its
linear form compares their difference with zero. -/
theorem relating_holds (lhs : Expression Rat) (relation : Relation) (rhs : Expression Rat) :
    (relating id lhs relation rhs priority).Holds x ↔ relation.Relates (lhs.eval x) (rhs.eval x) := by
  rw [relating, Holds, Expression.eval_sub, compareZero_sub]

/-- A constraint that fixes an expression holds exactly if the expression has the value. -/
theorem equalling_holds (lhs : Expression Rat) (value : Rat) :
    (equalling id lhs value priority).Holds x ↔ lhs.eval x = value := by
  rw [equalling, Holds, Expression.eval_subConstant, compareZero_sub, Relation.Relates]

end Constraint

end Linear

end ViewConstraints

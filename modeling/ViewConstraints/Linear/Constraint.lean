import ViewConstraints.Linear.Expression
import ViewConstraints.Priority
import ViewConstraints.Relation

/-!
# Linear constraints

A constraint compares an expression with zero. Two constraints with the same expression are still
two constraints: each carries a number of its own, by which a solver tells them apart.
-/

namespace ViewConstraints.Linear

/-- An expression related to zero with a priority. -/
structure Constraint (K : Type) where
  /-- What tells this constraint from every other one. -/
  id : Nat
  expression : Expression K
  relation : Relation
  priority : Priority

variable {K : Type} [Scalar K]

namespace Constraint

/-- The constraint that two expressions stand in a relation. -/
def relating (id : Nat) (lhs : Expression K) (relation : Relation) (rhs : Expression K)
    (priority : Priority) : Constraint K :=
  ⟨id, lhs.sub rhs, relation, priority⟩

/-- The constraint that an expression equals a number. -/
def equalling (id : Nat) (lhs : Expression K) (value : K) (priority : Priority) : Constraint K :=
  ⟨id, lhs.subConstant value, .equal, priority⟩

end Constraint

/-- Whether a number stands in a relation to zero. -/
def compareZero (x : K) : Relation → Prop
  | .equal => x = 0.0
  | .greaterOrEqual => ¬ x < 0.0
  | .lessOrEqual => ¬ 0.0 < x

/-- Whether an assignment satisfies a constraint, priorities aside. -/
def Constraint.Holds (a : Variable → K) (c : Constraint K) : Prop :=
  compareZero (c.expression.eval a) c.relation

end ViewConstraints.Linear

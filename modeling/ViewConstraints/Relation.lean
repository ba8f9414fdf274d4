/-!
# The three relations

A constraint says that one side equals the other, is at least as great, or is at most as great.
-/

namespace ViewConstraints

/-- How the left side of a constraint stands to its right side. -/
inductive Relation where
  | equal
  | greaterOrEqual
  | lessOrEqual
  deriving DecidableEq, Repr

namespace Relation

/-- The sign of a relation in descriptions and log entries. -/
def symbol : Relation → String
  | equal => "=="
  | greaterOrEqual => ">="
  | lessOrEqual => "<="

end Relation

end ViewConstraints

/-!
# Handles

Engines, views and constraints are referred to by numbers, given in the order of their creation.
Equal handles refer to the same thing, so every copy of a handle sees the same state.
-/

namespace ViewConstraints

/-- The number of an engine. -/
abbrev EngineId := Nat

/-- The number of a view, counted over all engines. -/
abbrev ViewId := Nat

/-- The number of a constraint, counted over all engines. -/
abbrev ConstraintId := Nat

end ViewConstraints

import ViewConstraints.Config.Basic
import ViewConstraints.EngineError

/-!
# Engines

An engine is a constraint system with its configuration and the values of unknowns it has learnt
from its solver. The values are brought up to date by the solver's reports of changes, and a value
once learnt stays when its unknown leaves the solver.
-/

namespace ViewConstraints.Scene

open Linear Simplex

/-- A constraint system. -/
structure Engine (K : Type) where
  config : Config K
  /-- The view that stands for the whole area. -/
  root : ViewId
  solver : Solver K
  /-- The values last reported by the solver. -/
  values : OrderedMap Variable K := ∅

namespace Engine

variable {K : Type} [Scalar K]

/-- An engine without constraints. -/
def create (config : Config K) (root : ViewId) : Engine K :=
  { config, root, solver := .empty }

/-- The answer of a solver in terms of engine errors. -/
def answer : Except Refusal Unit → Except EngineError.Cause Unit
  | .ok () => .ok ()
  | .error refusal => .error (.ofRefusal refusal)

/-- Adds a constraint to the solver. -/
def add (e : Engine K) (c : Constraint K) : Except EngineError.Cause Unit × Engine K :=
  let (result, solver) := e.solver.addConstraint c
  (answer result, { e with solver })

/-- Removes a constraint from the solver. -/
def remove (e : Engine K) (c : Constraint K) : Except EngineError.Cause Unit × Engine K :=
  let (result, solver) := e.solver.removeConstraint c
  (answer result, { e with solver })

/-- Learns the values the solver reports as changed. -/
def refresh (e : Engine K) : Engine K :=
  let (changes, solver) := e.solver.fetchChanges
  { e with solver, values := changes.foldl (fun values c => values.insert c.1 c.2) e.values }

/-- The value learnt for an unknown, and zero if there is none. -/
def value (e : Engine K) (v : Variable) : K := (e.values.get? v).getD 0.0

/-- The frame of a view by the values learnt. -/
def frameOf (e : Engine K) (view : ViewId) : Rect K :=
  ⟨e.value ⟨view, .left⟩, e.value ⟨view, .top⟩, e.value ⟨view, .width⟩, e.value ⟨view, .height⟩⟩

end Engine

end ViewConstraints.Scene

import ViewConstraints.Scene.Engine
import ViewConstraints.Scene.Event

/-!
# Scenes

A `Scene` is all that exists together: engines, the views they lay out, the constraints made between
anchors, and the log. Engines, views and constraints are numbered in the order of their creation;
a number that belongs to none is answered by leaving the scene as it is.

Three stores say what is in force and are kept in step by the operations on a scene: the activity
flag of each constraint, the pins on record for each view, and the set each solver holds.
-/

namespace ViewConstraints

open Linear

/-- A rectangular element. -/
structure View (K : Type) where
  name : String
  /-- The engine that lays the view out. -/
  engine : EngineId
  /-- Distances of the safe area from the edges. -/
  insets : Insets K
  /-- The frame the view is held at while it is pinned. -/
  frame : Rect K
  /-- The constraints that hold the view at its frame, while it is pinned. -/
  pins : Option (List (Constraint K)) := none

/-- Whether a view is held at its own frame. -/
def View.isPinned {K : Type} (v : View K) : Bool := v.pins.isSome

/-- A view for diagnostics. -/
def View.inspect {K : Type} (v : View K) : String :=
  Text.record "View" [("name", Text.quoted v.name)]

/-- A constraint made through anchors. -/
structure AnchorConstraint (K : Type) where
  /-- The engine of its left anchor, in whose solver it takes part. -/
  engine : EngineId
  /-- What it says. -/
  relationship : Relationship K
  /-- The form in which a solver takes it, fixed when it was made. -/
  linear : Constraint K
  /-- Whether it takes part in layout. -/
  active : Bool := false

/-- A constraint for diagnostics. -/
def AnchorConstraint.inspect (c : AnchorConstraint Float) : String :=
  Text.record "Constraint"
    [("description", Text.quoted c.relationship.text), ("active", toString c.active)]

/-- Engines with their views and constraints, and the log. -/
structure Scene (K : Type) where
  engines : List (Scene.Engine K) := []
  views : List (View K) := []
  constraints : List (AnchorConstraint K) := []
  /-- The number of the next linear constraint. -/
  nextLinear : Nat := 0
  /-- The reports made, first to last. -/
  log : List (Scene.Event K) := []

namespace Scene

variable {K : Type} [Scalar K]

/-- A scene without engines. -/
def empty : Scene K := {}

/-- Adds a report to the log. -/
def emit (s : Scene K) (e : Event K) : Scene K := { s with log := s.log ++ [e] }

/-- Takes the number of a new linear constraint. -/
def freshLinear (s : Scene K) : Nat × Scene K :=
  (s.nextLinear, { s with nextLinear := s.nextLinear + 1 })

/-- Changes one view. -/
def modifyView (s : Scene K) (v : ViewId) (f : View K → View K) : Scene K :=
  { s with views := s.views.modify v f }

/-- Adds a linear constraint to the solver of an engine. -/
def addLinear (s : Scene K) (engine : EngineId) (c : Constraint K) :
    Except EngineError.Cause Unit × Scene K :=
  match s.engines[engine]? with
  | none => (.ok (), s)
  | some e =>
    let (result, e) := e.add c
    (result, { s with engines := s.engines.set engine e })

/-- Removes a linear constraint from the solver of an engine. -/
def removeLinear (s : Scene K) (engine : EngineId) (c : Constraint K) :
    Except EngineError.Cause Unit × Scene K :=
  match s.engines[engine]? with
  | none => (.ok (), s)
  | some e =>
    let (result, e) := e.remove c
    (result, { s with engines := s.engines.set engine e })

end Scene

end ViewConstraints

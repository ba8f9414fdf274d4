import ViewConstraints.Scene.View

/-!
# Making and activating constraints

A constraint between anchors is made inactive, in the engine of its left anchor and with the priority
of that engine, and captures the insets of both views at that moment. Activity changes only when the
solver accepts the change; asking for the present state is no request at all.
-/

namespace ViewConstraints.Scene

open Linear

variable {K : Type} [Scalar K]

/-- The name of an anchor; a view that does not exist has no name. -/
def nameOf (s : Scene K) (a : Anchor) : AnchorName :=
  ⟨(s.views[a.view]?.map View.name).getD "", a.feature, a.safe⟩

/-- The expression of an anchor with the present insets of its view. -/
def expressionOf (s : Scene K) (a : Anchor) : Expression K := a.expression (s.insets a.view)

/-- The engine of an anchor. -/
def engineOf (s : Scene K) (a : Anchor) : EngineId := (s.views[a.view]?.map View.engine).getD 0

/-- The priority of an engine's constraints. -/
def priorityOf (s : Scene K) (engine : EngineId) : Priority :=
  (s.engines[engine]?.map fun e => e.config.priority).getD .required

/-- Adds an inactive constraint. -/
def insertConstraint (s : Scene K) (engine : EngineId) (relationship : Relationship K)
    (linear : Constraint K) : ConstraintId × Scene K :=
  let constraint : AnchorConstraint K := { engine, relationship, linear }
  (s.constraints.length, { s with constraints := s.constraints ++ [constraint] })

/-- Makes the constraint that one anchor stands in a relation to another at a distance. -/
def relate (s : Scene K) (lhs : Anchor) (relation : Relation) (rhs : Anchor) (offset : K) :
    ConstraintId × Scene K :=
  let engine := s.engineOf lhs
  let (id, s) := s.freshLinear
  let linear := Constraint.relating id (s.expressionOf lhs) relation
    ((s.expressionOf rhs).addConstant offset) (s.priorityOf engine)
  s.insertConstraint engine (.between (s.nameOf lhs) relation (s.nameOf rhs) offset) linear

/-- Makes the constraint that an anchor has a fixed value. -/
def relateNumber (s : Scene K) (lhs : Anchor) (value : K) : ConstraintId × Scene K :=
  let engine := s.engineOf lhs
  let (id, s) := s.freshLinear
  let linear := Constraint.equalling id (s.expressionOf lhs) value (s.priorityOf engine)
  s.insertConstraint engine (.fixed (s.nameOf lhs) value) linear

/-- Whether a constraint is active. -/
def isActive (s : Scene K) (c : ConstraintId) : Bool :=
  (s.constraints[c]?.map AnchorConstraint.active).getD false

/-- Asks for a constraint to be active or inactive. -/
def trySetActive (s : Scene K) (c : ConstraintId) (active : Bool) :
    Except (EngineError (Relationship K)) Unit × Scene K :=
  match s.constraints[c]? with
  | none => (.ok (), s)
  | some constraint =>
    if constraint.active = active then (.ok (), s)
    else
      let change := if active then s.addLinear else s.removeLinear
      match change constraint.engine constraint.linear with
      | (.error cause, s) => (.error ⟨constraint.relationship, cause⟩, s)
      | (.ok (), s) =>
        let event : Event K :=
          if active then .activated c constraint.relationship
          else .deactivated c constraint.relationship
        let s := s.emit event
        (.ok (), { s with constraints := s.constraints.modify c fun r => { r with active } })

/-- Asks for a constraint to be active or inactive, and reports a refusal. -/
def setActive (s : Scene K) (c : ConstraintId) (active : Bool) : Scene K :=
  match s.trySetActive c active with
  | (.ok (), s) => s
  | (.error error, s) => s.emit (.activationRefused c error)

/-- Asks for constraints to be active or inactive, one after the other. -/
def setAllActive (s : Scene K) (cs : List ConstraintId) (active : Bool) : Scene K :=
  cs.foldl (fun s c => s.setActive c active) s

end ViewConstraints.Scene

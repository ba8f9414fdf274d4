import ViewConstraints.Scene.Basic

/-!
# Holding views at their frames

A pinned view is held at its frame by four required constraints, one for each of its unknowns. The
constraints that the solver refuses are reported and left out; the others are on record with the
view until it is released, which removes all of them whatever the solver answers.
-/

namespace ViewConstraints.Scene

open Linear

variable {K : Type} [Scalar K]

/-- The unknowns of a frame, each with the number that the frame gives it. -/
def frameParts (frame : Rect K) : List (Quantity × K) :=
  [(.left, frame.x), (.top, frame.y), (.width, frame.width), (.height, frame.height)]

/-- The constraint with number `id` that holds one unknown of a view at a number. -/
def pinConstraint (id : Nat) (view : ViewId) (part : Quantity × K) : Constraint K :=
  .equalling id (.ofVariable ⟨view, part.1⟩) part.2 .required

/-- Holds one unknown of a view, and adds the constraint to those accepted before. -/
def pinPart (view : ViewId) (name : String) (engine : EngineId)
    (acc : List (Constraint K) × Scene K) (part : Quantity × K) : List (Constraint K) × Scene K :=
  let (id, s) := acc.2.freshLinear
  let c := pinConstraint id view part
  match s.addLinear engine c with
  | (.ok (), s) => (acc.1 ++ [c], s)
  | (.error cause, s) => (acc.1, s.emit (.pinRefused view ⟨name, cause⟩))

/-- Holds a view at its frame, unless it is held already. -/
def pin (s : Scene K) (view : ViewId) : Scene K :=
  match s.views[view]? with
  | none => s
  | some v =>
    if v.isPinned then s
    else
      let (pins, s) := (frameParts v.frame).foldl (pinPart view v.name v.engine) ([], s)
      s.modifyView view fun v => { v with pins := some pins }

/-- Removes one pin. -/
def unpinPart (view : ViewId) (name : String) (engine : EngineId) (s : Scene K)
    (c : Constraint K) : Scene K :=
  match s.removeLinear engine c with
  | (.ok (), s) => s
  | (.error cause, s) => s.emit (.unpinRefused view ⟨name, cause⟩)

/-- Releases a view from its frame, if it is held. -/
def unpin (s : Scene K) (view : ViewId) : Scene K :=
  match s.views[view]? with
  | none => s
  | some v =>
    match v.pins with
    | none => s
    | some pins =>
      let s := s.modifyView view fun v => { v with pins := none }
      let s := pins.foldl (unpinPart view v.name v.engine) s
      s.emit (.unpinned view v.name)

end ViewConstraints.Scene

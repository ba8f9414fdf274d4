import ViewConstraints.Simplex.Solver
import ViewConstraints.Text.Quoted

/-!
# Errors of activation

Why a constraint could not be made active or inactive. An error names what it is about: a constraint
by its description, or a view whose frame could not be pinned.
-/

namespace ViewConstraints

/-- Why an engine refused. -/
inductive EngineError.Cause where
  /-- The constraint conflicts with required ones. -/
  | unsatisfiable
  /-- The solver holds the constraint already. -/
  | duplicateConstraint
  /-- The solver does not hold the constraint. -/
  | unknownConstraint
  /-- The solver failed. -/
  | internal (message : String)
  deriving DecidableEq, Repr

/-- A refusal and what it is about. -/
structure EngineError (α : Type) where
  subject : α
  cause : EngineError.Cause
  deriving DecidableEq, Repr

namespace EngineError

/-- The cause of a solver's refusal. -/
def Cause.ofRefusal : Simplex.Refusal → Cause
  | .unsatisfiable => unsatisfiable
  | .duplicate => duplicateConstraint
  | .unknown => unknownConstraint
  | .internal failure => internal failure.message

/-- The same error about something else. -/
def map {α β : Type} (f : α → β) (e : EngineError α) : EngineError β := ⟨f e.subject, e.cause⟩

/-- The wording of an error. -/
def message (e : EngineError String) : String :=
  match e.cause with
  | .unsatisfiable =>
    "unable to satisfy constraint '" ++ e.subject ++ "': conflicts with active constraints"
  | .duplicateConstraint => "constraint '" ++ e.subject ++ "' is already active"
  | .unknownConstraint => "constraint '" ++ e.subject ++ "' is not active"
  | .internal message => "internal solver error for '" ++ e.subject ++ "': " ++ message

/-- The name of a cause. -/
def Cause.name : Cause → String
  | unsatisfiable => "Unsatisfiable"
  | duplicateConstraint => "DuplicateConstraint"
  | unknownConstraint => "UnknownConstraint"
  | internal _ => "Internal"

/-- An error with its parts, for diagnostics. -/
def inspect (e : EngineError String) : String :=
  let subject := ("constraint", Text.quoted e.subject)
  match e.cause with
  | .internal message => Text.record e.cause.name [subject, ("message", Text.quoted message)]
  | _ => Text.record e.cause.name [subject]

end EngineError

end ViewConstraints

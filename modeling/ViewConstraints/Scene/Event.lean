import ViewConstraints.EngineError
import ViewConstraints.Handle
import ViewConstraints.Layout.Host
import ViewConstraints.Relationship

/-!
# The log

What a scene reports as it works: relations applied, constraints activated and deactivated, views
released from their frames, and every request that was refused. A report says which constraint or
view it is about, since neither descriptions nor names tell two of them apart.
-/

namespace ViewConstraints.Scene

open Layout (Applied)

/-- One report of the log. -/
inductive Event (K : Type) where
  /-- A relation of a layout statement was applied, whether or not its constraint became active. -/
  | applied (report : Applied K)
  /-- A constraint became active. -/
  | activated (constraint : ConstraintId) (relationship : Relationship K)
  /-- A constraint became inactive. -/
  | deactivated (constraint : ConstraintId) (relationship : Relationship K)
  /-- A constraint kept its activity because a request to change it was refused. -/
  | activationRefused (constraint : ConstraintId) (error : EngineError (Relationship K))
  /-- A view is no longer held at its frame. -/
  | unpinned (view : ViewId) (name : String)
  /-- One part of a view's frame could not be held. -/
  | pinRefused (view : ViewId) (error : EngineError String)
  /-- One part of a view's frame could not be released properly. -/
  | unpinRefused (view : ViewId) (error : EngineError String)
  deriving DecidableEq, Repr

/-- How much attention a report asks for. -/
inductive Level where
  | trace
  | debug
  | warn
  deriving DecidableEq, Repr

/-- The name of a level. -/
def Level.name : Level → String
  | trace => "TRACE"
  | debug => "DEBUG"
  | warn => "WARN"

namespace Event

variable {K : Type}

/-- The level of a report. -/
def level : Event K → Level
  | applied _ => .trace
  | activated .. | deactivated .. | unpinned .. => .debug
  | activationRefused .. | pinRefused .. | unpinRefused .. => .warn

/-- The wording of a report. -/
def message : Event K → String
  | applied _ => "activated layout constraint"
  | activated .. => "constraint activated"
  | deactivated .. => "constraint deactivated"
  | activationRefused .. => "unable to change constraint activation; leaving it unchanged"
  | unpinned .. => "removed autoresizing constraints"
  | pinRefused .. => "unable to pin view to its frame"
  | unpinRefused .. => "unable to unpin view"

/-- The particulars of a report, by name. -/
def fields : Event Float → List (String × String)
  | applied report =>
    ("relation", report.sign) ::
      (report.constant?.map fun c => ("constant", Decimal.shortest c)).toList
  | activated _ relationship | deactivated _ relationship => [("constraint", relationship.text)]
  | activationRefused _ error =>
    [("constraint", error.subject.text), ("error", (error.map Relationship.text).message)]
  | unpinned _ name => [("view", name)]
  | pinRefused _ error | unpinRefused _ error =>
    [("view", error.subject), ("error", error.message)]

end Event

end ViewConstraints.Scene

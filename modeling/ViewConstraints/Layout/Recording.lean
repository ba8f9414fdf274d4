import ViewConstraints.Layout.Recorder

/-!
# Recordings

A recording runs layout blocks and single relations against a recording host, and keeps the
constraints whose statements keep them. `Recording.transcript` gives the answer to each step with the
relations reported during it.
-/

namespace ViewConstraints.Layout

/-- A journal and the constraints that were kept. -/
structure Recording (K : Type) where
  journal : Journal K
  kept : List ConstraintId := []

namespace Recording

/-- One step of a recording. -/
inductive Step (K : Type) where
  /-- Runs a layout block on a view. -/
  | layout (view : ViewId) (entries : List (Entry K))
  /-- Relates an anchor outside any block. -/
  | relate (lhs : Anchor) (relating : Relating K)
  /-- Sets the activity of the constraint kept at a place. -/
  | setActive (place : Nat) (active : Bool)

/-- The answer to one entry of a block. -/
inductive Line where
  /-- The anchors that two reads of a property gave. -/
  | read (first second : RecordedAnchor)
  /-- The place of the constraint among those kept. -/
  | kept (place : Nat)
  | discarded
  deriving DecidableEq, Repr

/-- The answer to a step. -/
inductive Answer (K : Type) where
  /-- The view that a block ran on, and the answers to its entries. -/
  | block (element : ViewId) (lines : List Line)
  | kept (place : Nat)
  | constraint (state : RecordedConstraint K)
  /-- The step names something that does not exist. -/
  | unknownHandle

variable {K : Type} [Scalar K]

/-- A recording of views with these names. -/
def start (views : List String) : Recording K := ⟨{ views }, []⟩

/-- Keeps what an entry of a block made, if it is to be kept. -/
def keepOutcome (acc : List Line × List ConstraintId) :
    Outcome RecordedAnchor ConstraintId → List Line × List ConstraintId
  | .anchors first second => (acc.1 ++ [.read first second], acc.2)
  | .constraint c => (acc.1 ++ [.kept acc.2.length], acc.2 ++ [c])
  | .discarded => (acc.1 ++ [.discarded], acc.2)

/-- Performs one step. -/
def perform (r : Recording K) : Step K → Answer K × Recording K
  | .layout view entries =>
    let (outcomes, journal) := Journal.host.layout view entries r.journal
    let (lines, kept) := outcomes.foldl keepOutcome ([], r.kept)
    (.block view lines, { journal, kept })
  | .relate lhs relating =>
    let (c, journal) := Journal.host.relateAnchor lhs relating r.journal
    (.kept r.kept.length, { journal, kept := r.kept ++ [c] })
  | .setActive place active =>
    match r.kept[place]? with
    | none => (.unknownHandle, r)
    | some c =>
      let ((), journal) := Journal.setActive c active r.journal
      match journal.constraints[c]? with
      | none => (.unknownHandle, r)
      | some state => (.constraint state, { r with journal })

/-- The state of every constraint kept. -/
def constraints (r : Recording K) : List (RecordedConstraint K) :=
  r.kept.filterMap fun c => r.journal.constraints[c]?

/-- The answers to steps with the relations reported during each, and the recording at the end. -/
def transcript (r : Recording K) :
    List (Step K) → List (Answer K × List (Applied K)) × Recording K
  | [] => ([], r)
  | step :: rest =>
    let (answer, next) := r.perform step
    let reports := next.journal.reports.drop r.journal.reports.length
    let (answers, last) := next.transcript rest
    ((answer, reports) :: answers, last)

end Recording

end ViewConstraints.Layout

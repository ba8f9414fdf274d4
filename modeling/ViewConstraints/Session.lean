import ViewConstraints.Config.Error
import ViewConstraints.Scene.Host

/-!
# Sessions

A session drives a scene by steps that name engines and views by their numbers and constraints by the
order in which they were kept. `Session.perform` gives the answer to one step, `Session.transcript`
the answers to a list of steps, each with the reports it added to the log.
-/

namespace ViewConstraints

open Layout

/-- A scene and the constraints that were kept, which may contain one constraint several times. -/
structure Session (K : Type) where
  scene : Scene K
  kept : List ConstraintId := []

namespace Session

/-- One step of a session. Constraints are given by their places among those kept. -/
inductive Step (K : Type) where
  /-- Adds an engine, if its configuration could be loaded. -/
  | addEngine (config : Except Config.LoadError (Config K))
  /-- Asks for the configuration of an engine. -/
  | config (engine : EngineId)
  /-- Adds a view to an engine. -/
  | addView (engine : EngineId) (name : String) (frame : Rect K)
  /-- Asks for the state of a view. -/
  | view (view : ViewId)
  /-- Runs a layout block on a view. -/
  | layout (view : ViewId) (statements : List (Statement K))
  /-- Relates an anchor outside any block. -/
  | relate (lhs : Anchor) (relating : Relating K)
  /-- Makes an inactive constraint between two anchors. -/
  | make (lhs : Anchor) (relation : Relation) (rhs : Anchor) (offset : K)
  /-- Makes an inactive constraint that fixes an anchor. -/
  | makeFixed (lhs : Anchor) (value : K)
  /-- Keeps a constraint once more. -/
  | copy (constraint : Nat)
  /-- Asks for a constraint to be active or inactive; a refusal goes to the log. -/
  | setActive (constraint : Nat) (active : Bool)
  /-- Asks for a constraint to be active or inactive; a refusal is answered. -/
  | trySetActive (constraint : Nat) (active : Bool)
  /-- Asks an engine for several constraints to be active or inactive; each is switched in its own
  engine, whichever engine is asked. -/
  | setAllActive (engine : EngineId) (constraints : List Nat) (active : Bool)
  /-- Asks for all constraints kept. -/
  | constraints
  /-- Reads the frame of a view. -/
  | frame (view : ViewId)
  /-- Reads the frame of a view's safe area. -/
  | safeFrame (view : ViewId)
  /-- Reads the frames of all views in order. -/
  | frames
  /-- Changes the insets of a view. -/
  | setInsets (view : ViewId) (insets : Insets K)
  /-- Turns holding a view at its frame on or off. -/
  | setPinned (view : ViewId) (enabled : Bool)
  /-- Compares two anchors. -/
  | compare (a b : Anchor)
  /-- Offsets an anchor. -/
  | offset (anchor : Anchor) (shifts : List (Shift K))
  /-- Asks for the diagnostic text of a view. -/
  | inspectView (view : ViewId)
  /-- Asks for the diagnostic text of a constraint. -/
  | inspectConstraint (constraint : Nat)

/-- A constraint as it is kept. -/
structure Kept (K : Type) where
  /-- Its place among the constraints kept. -/
  place : Nat
  relationship : Relationship K
  active : Bool

/-- The answer to a step. -/
inductive Answer (K : Type) where
  | engine (engine : EngineId) (root : ViewId)
  | loadError (error : Config.LoadError)
  | config (config : Config K)
  | view (view : ViewId) (pinned : Bool)
  | viewState (name : String) (pinned : Bool) (insets : Insets K) (priority : Priority)
  /-- The constraints of a block, without those of statements that do not keep theirs. -/
  | block (kept : List (Option (Kept K)))
  | kept (kept : Kept K)
  | flag (value : Bool)
  | flags (values : List Bool)
  /-- The refusal of a request, if it was refused, and the activity afterwards. -/
  | attempt (refusal : Option (EngineError (Relationship K))) (active : Bool)
  | constraints (constraints : List (Relationship K × Bool))
  | frame (frame : Rect K)
  | safeFrame (frame : Rect K)
  | frames (frames : List (Rect K))
  | insets (insets : Insets K)
  | offset (constant : Option K) (anchor : AnchorName)
  | inspectedView (view : View K)
  | inspectedConstraint (constraint : AnchorConstraint K)
  /-- The step names something that does not exist. -/
  | unknownHandle

variable {K : Type} [Scalar K]

/-- A session with one engine. -/
def start (config : Config K) : Session K := ⟨(Scene.empty.addEngine config).2, []⟩

/-- A session with its scene changed. -/
def withScene (s : Session K) (scene : Scene K) : Session K := { s with scene }

/-- Keeps a constraint, if it exists. -/
def keep (s : Session K) (c : ConstraintId) : Option (Kept K) × Session K :=
  match s.scene.constraints[c]? with
  | none => (none, s)
  | some r =>
    (some ⟨s.kept.length, r.relationship, r.active⟩, { s with kept := s.kept ++ [c] })

/-- Keeps a constraint and answers with it. -/
def answerKept (s : Session K) (c : ConstraintId) : Answer K × Session K :=
  let (kept, s) := s.keep c
  ((kept.map Answer.kept).getD .unknownHandle, s)

/-- Keeps the constraint of a block's statement, if the statement keeps it. -/
def keepOutcome (acc : List (Option (Kept K)) × Session K) (o : Outcome Anchor ConstraintId) :
    List (Option (Kept K)) × Session K :=
  match o with
  | .constraint c =>
    let (kept, s) := acc.2.keep c
    (acc.1 ++ [kept], s)
  | _ => (acc.1 ++ [none], acc.2)

/-- Whether the constraint at a place among those kept is active. -/
def isActive (s : Session K) (place : Nat) : Bool :=
  (s.kept[place]?.map s.scene.isActive).getD false

/-- What is kept at a place, and whether it is active. -/
def keptState (s : Session K) (c : ConstraintId) : Option (Relationship K × Bool) :=
  s.scene.constraints[c]?.map fun r => (r.relationship, r.active)

/-- Reads the frames of views one after the other. -/
def readFrames (s : Scene K) : List ViewId → List (Rect K) × Scene K
  | [] => ([], s)
  | v :: rest =>
    let (frame, s) := s.frame v
    let (frames, s) := readFrames s rest
    (frame :: frames, s)

/-- Performs a step on a constraint that is kept. -/
def withKept (s : Session K) (place : Nat)
    (f : ConstraintId → Answer K × Session K) : Answer K × Session K :=
  match s.kept[place]? with
  | none => (.unknownHandle, s)
  | some c => f c

/-- Performs a step on an engine that exists. -/
def withEngine (s : Session K) (engine : EngineId)
    (f : Scene.Engine K → Answer K × Session K) : Answer K × Session K :=
  match s.scene.engines[engine]? with
  | none => (.unknownHandle, s)
  | some e => f e

/-- Performs a step on a view that exists. -/
def withView (s : Session K) (view : ViewId)
    (f : View K → Answer K × Session K) : Answer K × Session K :=
  match s.scene.views[view]? with
  | none => (.unknownHandle, s)
  | some v => f v

/-- Performs one step. -/
def perform (s : Session K) : Step K → Answer K × Session K
  | .addEngine (.error error) => (.loadError error, s)
  | .addEngine (.ok config) =>
    let root := s.scene.views.length
    let (engine, scene) := s.scene.addEngine config
    (.engine engine root, s.withScene scene)
  | .config engine => s.withEngine engine fun e => (.config e.config, s)
  | .addView engine name frame => s.withEngine engine fun _ =>
    let (view, scene) := s.scene.addView engine name frame
    let pinned := (scene.views[view]?.map View.isPinned).getD false
    (.view view pinned, s.withScene scene)
  | .view view => s.withView view fun v =>
    (.viewState v.name v.isPinned v.insets (s.scene.priorityOf v.engine), s)
  | .layout view statements =>
    let (outcomes, scene) := Scene.host.layout view (statements.map Entry.statement) s.scene
    let (kept, s) := outcomes.foldl keepOutcome ([], s.withScene scene)
    (.block kept, s)
  | .relate lhs relating =>
    let (c, scene) := Scene.host.relateAnchor lhs relating s.scene
    (s.withScene scene).answerKept c
  | .make lhs relation rhs offset =>
    let (c, scene) := s.scene.relate lhs relation rhs offset
    (s.withScene scene).answerKept c
  | .makeFixed lhs value =>
    let (c, scene) := s.scene.relateNumber lhs value
    (s.withScene scene).answerKept c
  | .copy place => s.withKept place s.answerKept
  | .setActive place active => s.withKept place fun c =>
    let scene := s.scene.setActive c active
    (.flag (scene.isActive c), s.withScene scene)
  | .trySetActive place active => s.withKept place fun c =>
    match s.scene.trySetActive c active with
    | (.ok (), scene) => (.attempt none (scene.isActive c), s.withScene scene)
    | (.error refusal, scene) => (.attempt (some refusal) (scene.isActive c), s.withScene scene)
  | .setAllActive engine places active => s.withEngine engine fun _ =>
    let s := s.withScene (s.scene.setAllActive (places.filterMap fun p => s.kept[p]?) active)
    (.flags (places.map s.isActive), s)
  | .constraints => (.constraints (s.kept.filterMap s.keptState), s)
  | .frame view => s.withView view fun _ =>
    let (frame, scene) := s.scene.frame view
    (.frame frame, s.withScene scene)
  | .safeFrame view => s.withView view fun _ =>
    let (frame, scene) := s.scene.safeFrame view
    (.safeFrame frame, s.withScene scene)
  | .frames =>
    let (frames, scene) := readFrames s.scene (List.range s.scene.views.length)
    (.frames frames, s.withScene scene)
  | .setInsets view insets => s.withView view fun _ =>
    let scene := s.scene.setInsets view insets
    (.insets (scene.insets view), s.withScene scene)
  | .setPinned view enabled => s.withView view fun _ =>
    let scene := s.scene.setPinned view enabled
    (.flag ((scene.views[view]?.map View.isPinned).getD false), s.withScene scene)
  | .compare a b => (.flag (decide (a = b)), s)
  | .offset anchor shifts => (.offset (Shift.total? shifts) (s.scene.nameOf anchor), s)
  | .inspectView view => s.withView view fun v => (.inspectedView v, s)
  | .inspectConstraint place => s.withKept place fun c =>
    match s.scene.constraints[c]? with
    | none => (.unknownHandle, s)
    | some r => (.inspectedConstraint r, s)

/-- The session after steps. -/
def run (s : Session K) (steps : List (Step K)) : Session K :=
  steps.foldl (fun s step => (s.perform step).2) s

/-- The answers to steps. -/
def answers (s : Session K) : List (Step K) → List (Answer K)
  | [] => []
  | step :: rest => (s.perform step).1 :: answers (s.perform step).2 rest

/-- The answers to steps, each with the reports added since the one before; `reported` reports have
been given out already. -/
def transcriptFrom (reported : Nat) (s : Session K) :
    List (Step K) → List (Answer K × List (Scene.Event K))
  | [] => []
  | step :: rest =>
    let (answer, s) := s.perform step
    (answer, s.scene.log.drop reported) :: transcriptFrom s.scene.log.length s rest

/-- The answers to all steps of a session, with their reports. Reports made at the start come with
the first step. -/
def transcript (s : Session K) (steps : List (Step K)) :
    List (Answer K × List (Scene.Event K)) :=
  transcriptFrom 0 s steps

end Session

end ViewConstraints

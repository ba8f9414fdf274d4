import ViewConstraints.Scene.Pin

/-!
# Creating views and reading frames

An engine comes with a root view, pinned to the size of its configuration; further views are pinned
to the frames they are created with. Reading a frame learns the changes of the view's solver first.
-/

namespace ViewConstraints.Scene

variable {K : Type} [Scalar K]

/-- Adds a view that is held at its frame. -/
def insertView (s : Scene K) (name : String) (engine : EngineId) (frame : Rect K)
    (insets : Insets K) : ViewId × Scene K :=
  let view : View K := { name, engine, insets, frame }
  (s.views.length, { s with views := s.views ++ [view] }.pin s.views.length)

/-- Adds an engine with its root view. -/
def addEngine (s : Scene K) (config : Config K) : EngineId × Scene K :=
  let engine := Engine.create config s.views.length
  let frame : Rect K := ⟨0.0, 0.0, config.rootSize.width, config.rootSize.height⟩
  let extended := { s with engines := s.engines ++ [engine] }
  (s.engines.length, (extended.insertView "root" s.engines.length frame config.safeAreaInsets).2)

/-- Adds a view without insets to an engine. -/
def addView (s : Scene K) (engine : EngineId) (name : String) (frame : Rect K) :
    ViewId × Scene K :=
  s.insertView name engine frame .zero

/-- The frame of a view in the current solution of its engine. -/
def frame (s : Scene K) (view : ViewId) : Rect K × Scene K :=
  match s.views[view]?.bind fun v => s.engines[v.engine]?.map fun e => (v.engine, e.refresh) with
  | none => (.zero, s)
  | some (engine, e) => (e.frameOf view, { s with engines := s.engines.set engine e })

/-- The insets of a view; a view that does not exist has none. -/
def insets (s : Scene K) (view : ViewId) : Insets K :=
  (s.views[view]?.map View.insets).getD .zero

/-- The frame of a view's safe area in the current solution. -/
def safeFrame (s : Scene K) (view : ViewId) : Rect K × Scene K :=
  let (r, s) := s.frame view
  (r.insetBy (s.insets view), s)

/-- Changes the insets of a view. Constraints made earlier keep the insets they were made with. -/
def setInsets (s : Scene K) (view : ViewId) (insets : Insets K) : Scene K :=
  s.modifyView view fun v => { v with insets }

/-- Turns holding a view at its frame on or off. A view that is held again is held at the frame it
has at that moment. -/
def setPinned (s : Scene K) (view : ViewId) (enabled : Bool) : Scene K :=
  if enabled then
    let (frame, s) := s.frame view
    (s.modifyView view fun v => { v with frame }).pin view
  else s.unpin view

end ViewConstraints.Scene

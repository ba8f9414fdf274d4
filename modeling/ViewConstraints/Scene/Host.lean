import ViewConstraints.Scene.Activation

/-!
# A scene as a host of layout blocks

Anchors of a scene are looked up without effect, so a block leaves its mark only through the
constraints it makes and the views it releases.
-/

namespace ViewConstraints.Scene

open Layout (Host)

variable {K : Type} [Scalar K]

/-- The requests of a layout block, answered by a scene. -/
def host : Host (Scene K) Anchor ConstraintId K where
  readGuide _ := return ()
  readAnchor a := return a
  relate lhs relation rhs offset := fun s => s.relate lhs relation rhs offset
  relateNumber lhs value := fun s => s.relateNumber lhs value
  setActive c active := modify fun s => s.setActive c active
  setPinned view enabled := modify fun s => s.setPinned view enabled
  report a := modify fun s => s.emit (.applied a)

end ViewConstraints.Scene

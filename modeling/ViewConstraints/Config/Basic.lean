import ViewConstraints.Geometry
import ViewConstraints.Priority

/-!
# Engine configuration

The size and insets of an engine's root view, and the priority of the constraints made through its
anchors. A configuration starts from the default and is changed field by field.
-/

namespace ViewConstraints

/-- What an engine is set up with. -/
structure Config (K : Type) where
  rootSize : Size K
  safeAreaInsets : Insets K
  priority : Priority
  deriving BEq

namespace Config

variable {K : Type} [Scalar K]

/-- A tall screen with a bar at the top and one at the bottom, and required constraints. -/
def standard : Config K :=
  { rootSize := ⟨375.0, 812.0⟩
    safeAreaInsets := ⟨44.0, 0.0, 34.0, 0.0⟩
    priority := .required }

instance : Inhabited (Config K) := ⟨standard⟩

/-- One setting of a configuration. -/
inductive Setting (K : Type) where
  | rootSize (size : Size K)
  | safeAreaInsets (insets : Insets K)
  | priority (priority : Priority)

/-- A configuration with one setting changed. -/
def set (c : Config K) : Setting K → Config K
  | .rootSize size => { c with rootSize := size }
  | .safeAreaInsets insets => { c with safeAreaInsets := insets }
  | .priority priority => { c with priority }

/-- The standard configuration with settings changed in order. -/
def build (settings : List (Setting K)) : Config K := settings.foldl set standard

end Config

end ViewConstraints

import ViewConstraints.Config.Decode
import ViewConstraints.Toml.Document

/-!
# Loading configurations

From the text of a document, and from what is found under a path.
-/

namespace ViewConstraints.Config

/-- The configuration that a text describes. -/
def ofText (text : String) : Except LoadError (Config Float) :=
  match Toml.parse text with
  | none => .error .malformed
  | some entries => (ofEntries entries).mapError .shape

/-- What is found under a path. -/
inductive FileContents where
  | missing
  | directory
  | bytes (contents : ByteArray)

/-- The configuration that a file describes, if the file holds text. -/
def ofFile : FileContents → Except LoadError (Config Float)
  | .missing => .error (.unreadable .missing)
  | .directory => .error (.unreadable .directory)
  | .bytes contents =>
    match String.fromUTF8? contents with
    | none => .error (.unreadable .notUtf8)
    | some text => ofText text

end ViewConstraints.Config

import ViewConstraints.Decimal.Shortest
import ViewConstraints.Text.Quoted

/-!
# Errors of loading a configuration

A configuration can fail to load because its file cannot be read, because its text is not a TOML
document, or because a value of the document has a shape that its key does not accept.
-/

namespace ViewConstraints.Config

/-- What stands where something else was expected. -/
inductive Found where
  | boolean (b : Bool)
  | integer (n : Int)
  | float (x : Float)
  | string (s : String)
  | sequence
  | map

/-- The wording of what was found. -/
def Found.text : Found → String
  | boolean b => "boolean `" ++ toString b ++ "`"
  | integer n => "integer `" ++ toString n ++ "`"
  | float x => "floating point `" ++ Decimal.shortestWithPoint x ++ "`"
  | string s => "string " ++ Text.quoted s
  | sequence => "sequence"
  | map => "map"

/-- What a key accepts. -/
inductive Expected where
  | number
  | size
  | insets
  deriving DecidableEq, Repr

/-- The wording of what was expected. -/
def Expected.text : Expected → String
  | number => "f64"
  | size => "struct Size"
  | insets => "struct Insets"

/-- Why a value does not have the shape its key accepts. -/
inductive ShapeError where
  /-- A value of another type. -/
  | invalidType (found : Found) (expected : Expected)
  /-- A name that is no priority. -/
  | unknownPriority (name : String)
  /-- A priority that is neither a name nor a table. -/
  | priorityNotNamed
  /-- A table without a priority. -/
  | noPriority
  /-- A table with more than one priority. -/
  | severalPriorities
  /-- A priority that holds a table or array that is not empty. -/
  | contentsNotEmpty
  /-- A priority that holds tables with headers. -/
  | elementsNotEmpty
  /-- A priority that holds something that is no container. -/
  | contentsNotTable (typeName : String)

/-- The wording of a wrong shape. -/
def ShapeError.message : ShapeError → String
  | invalidType found expected => "invalid type: " ++ found.text ++ ", expected " ++ expected.text
  | unknownPriority name =>
    "unknown variant `" ++ name ++ "`, expected one of `required`, `strong`, `medium`, `weak`"
  | priorityNotNamed => "wanted string or table"
  | noPriority => "wanted exactly 1 element, found 0 elements"
  | severalPriorities => "wanted exactly 1 element, more than 1 element"
  | contentsNotEmpty => "expected empty table"
  | elementsNotEmpty => "expected empty array"
  | contentsNotTable typeName => "expected table, found " ++ typeName

/-- Why a file has no text. -/
inductive FileError where
  | missing
  | directory
  | notUtf8
  deriving DecidableEq, Repr

/-- The wording of a file error. -/
def FileError.message : FileError → String
  | missing => "No such file or directory (os error 2)"
  | directory => "Is a directory (os error 21)"
  | notUtf8 => "stream did not contain valid UTF-8"

/-- Why a configuration could not be loaded. -/
inductive LoadError where
  | unreadable (error : FileError)
  /-- The text is no document. -/
  | malformed
  | shape (error : ShapeError)

/-- What is said of a configuration that is no document, and before what is wrong with its shape. -/
def malformedMessage : String := "Failed to parse engine config TOML"

/-- The wording of a failure to load. -/
def LoadError.message : LoadError → String
  | unreadable error => "Failed to read engine config file: " ++ error.message
  | malformed => malformedMessage
  | shape error => malformedMessage ++ ": " ++ error.message

end ViewConstraints.Config

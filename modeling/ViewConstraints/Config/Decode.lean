import ViewConstraints.Config.Basic
import ViewConstraints.Config.Error
import ViewConstraints.Decimal.Literal
import ViewConstraints.Toml.Value

/-!
# Configurations from documents

`Config.ofEntries` reads a configuration off the entries of a document. Keys that it does not know are
passed over, keys that are missing keep what they start from, and the first value in document order
that has a wrong shape is the error. What a missing key starts from depends on its depth: the standard
configuration at the top, and zero inside a size or insets.
-/

namespace ViewConstraints.Config

open Toml (Value Entries)

/-- What a value is said to be where it does not fit. -/
def Found.ofValue : Value → Found
  | .string s => .string s
  | .integer n => .integer n
  | .float x => .float x
  | .boolean b => .boolean b
  | .array _ | .tables _ => .sequence
  | .dateTime | .table _ => .map

/-- A number, written as an integer or as a float. -/
def readNumber : Value → Except ShapeError Float
  | .integer n => .ok (Decimal.ofInt n)
  | .float x => .ok x
  | v => .error (.invalidType (.ofValue v) .number)

/-- Reads known keys off entries, in document order. `known` says what a value under a key does to
the result, and is `none` for keys that are passed over. -/
def foldKnown {α : Type} (known : String → Option (Value → α → Except ShapeError α)) (start : α)
    (entries : Entries) : Except ShapeError α :=
  entries.foldlM (fun a e =>
    match known e.1 with
    | none => .ok a
    | some read => read e.2 a) start

/-- Reads a value into one field. -/
def readField {α β : Type} (read : Value → Except ShapeError β) (set : α → β → α) (v : Value)
    (a : α) : Except ShapeError α :=
  (read v).map (set a)

/-- Reads items into fields by position. Fields without an item are left, and so are items without a
field. -/
def foldFields {α : Type} : List (α → Float → α) → α → List Value → Except ShapeError α
  | set :: fields, a, v :: rest => do foldFields fields (set a (← readNumber v)) rest
  | _, a, _ => .ok a

/-- Reads a value of number fields: from a table by name, or from an array by position. -/
def readFields {α : Type} (named : List (String × (α → Float → α))) (expected : Expected) (start : α) :
    Value → Except ShapeError α
  | .table entries =>
    foldKnown (fun key => (named.lookup key).map (readField readNumber)) start entries
  | .dateTime => .ok start
  | .array items => foldFields (named.map Prod.snd) start items
  | .tables elements => foldFields (named.map Prod.snd) start (elements.map Value.table)
  | v => .error (.invalidType (.ofValue v) expected)

/-- Reads a size. -/
def readSize : Value → Except ShapeError (Size Float) :=
  readFields [("width", fun s x => { s with width := x }),
    ("height", fun s x => { s with height := x })] .size .zero

/-- Reads insets. -/
def readInsets : Value → Except ShapeError (Insets Float) :=
  readFields [("top", fun i x => { i with top := x }),
    ("leading", fun i x => { i with leading := x }),
    ("bottom", fun i x => { i with bottom := x }),
    ("trailing", fun i x => { i with trailing := x })] .insets .zero

/-- The priority with a name. -/
def priorityNamed (name : String) : Except ShapeError Priority :=
  match name with
  | "required" => .ok .required
  | "strong" => .ok .strong
  | "medium" => .ok .medium
  | "weak" => .ok .weak
  | _ => .error (.unknownPriority name)

/-- Accepts a container without contents. -/
def emptyContents : Value → Except ShapeError Unit
  | .table [] | .array [] => .ok ()
  | .table _ | .array _ => .error .contentsNotEmpty
  | .tables [] => .ok ()
  | .tables _ => .error .elementsNotEmpty
  | v => .error (.contentsNotTable v.typeName)

/-- Reads a priority: its name, or a table with the name as its one key and nothing under it. -/
def readPriority : Value → Except ShapeError Priority
  | .string name => priorityNamed name
  | .table [] => .error .noPriority
  | .table [(name, contents)] => do
    let p ← priorityNamed name
    emptyContents contents
    return p
  | .table _ => .error .severalPriorities
  | _ => .error .priorityNotNamed

/-- What the keys of a configuration do to it. -/
def known (key : String) : Option (Value → Config Float → Except ShapeError (Config Float)) :=
  match key with
  | "root_size" => some (readField readSize fun c rootSize => { c with rootSize })
  | "safe_area_insets" => some (readField readInsets fun c safeAreaInsets => { c with safeAreaInsets })
  | "priority" => some (readField readPriority fun c priority => { c with priority })
  | _ => none

/-- The configuration that the entries of a document describe. -/
def ofEntries (entries : Entries) : Except ShapeError (Config Float) :=
  foldKnown known standard entries

end ViewConstraints.Config

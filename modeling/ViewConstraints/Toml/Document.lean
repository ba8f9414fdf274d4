import ViewConstraints.Toml.Scalar
import ViewConstraints.Toml.Table

/-!
# TOML documents

A document is a list of sections: the lines before any header, and then a header with its lines each.
`Document.scan` reads the sections, `Document.entries?` puts the tables together, and `parse` does
both to a text. What makes a document invalid is not told apart: it has no entries.
-/

namespace ViewConstraints.Toml

open Text

/-! ## Values -/

/-- A line end, with the blanks and the comment before it. -/
def lineEnd : Scan Unit := do
  blanks
  let _ ← Scan.option comment
  newline <|> Scan.atEnd

/-- What may stand between the parts of an array: blanks, comments and line ends. -/
def arraySpace : Scan Unit := do
  let _ ← Scan.many ((do let _ ← Scan.satisfy isBlank) <|> newline <|> comment)

/-- A key and its value, with the blanks around them. -/
def keyValue (value : Scan Value) : Scan Table.Line := do
  let parts ← key
  let _ ← Scan.char '='
  blanks
  let v ← value
  blanks
  match parts.getLast? with
  | some last => return ⟨parts.dropLast, last, v⟩
  | none => failure

/-- An array of items that are read with `value`. A comma may follow the last item. -/
def arrayValue (value : Scan Value) : Scan Value := do
  let _ ← Scan.char '['
  let items ← Scan.option
    (Scan.separated1 (arraySpace *> value <* arraySpace) (Scan.char ','))
  if items.isSome then
    let _ ← Scan.option (Scan.char ',')
  arraySpace
  let _ ← Scan.char ']'
  return .array (items.getD [])

/-- A table on one line, of values that are read with `value`. -/
def inlineTable (value : Scan Value) : Scan Value := do
  let _ ← Scan.char '\x7b'
  blanks
  let lines ← Scan.option (Scan.separated1 (keyValue value) (Scan.char ','))
  let _ ← Scan.char '\x7d'
  match (Table.empty .header).addLines (lines.getD []) with
  | some t => return .table t.finish
  | none => failure

/-- A value with containers nested at most `depth` deep. -/
def valueWithin : Nat → Scan Value
  | 0 => scalar
  | depth + 1 =>
    arrayValue (valueWithin depth) <|> inlineTable (valueWithin depth) <|> scalar

/-- A value. -/
def value : Scan Value := valueWithin (nestingLimit - 1)

/-! ## Sections -/

/-- What opens a section. -/
inductive Header where
  /-- The header of a table. -/
  | table (path : List String) (key : String)
  /-- The header of an element of an array of tables. -/
  | element (path : List String) (key : String)
  deriving DecidableEq, Repr

/-- A header and the lines under it. -/
structure Section where
  header : Header
  lines : List Table.Line

/-- A document as it is written. -/
structure Document where
  /-- The lines before any header. -/
  lines : List Table.Line
  sections : List Section

namespace Document

/-- Blank lines and comments on lines of their own. -/
def emptyLines : Scan Unit := do
  let _ ← Scan.many ((do let _ ← Scan.satisfy isBlank) <|> newline
    <|> (do comment; newline <|> Scan.atEnd))

/-- Lines that give values to keys. -/
def scanLines : Scan (List Table.Line) :=
  Scan.many (keyValue value <* lineEnd <* emptyLines)

/-- A header. -/
def scanHeader : Scan Header := do
  let _ ← Scan.char '['
  let element ← Scan.option (Scan.char '[')
  let parts ← key
  let _ ← Scan.char ']'
  if element.isSome then
    let _ ← Scan.char ']'
  match parts.getLast? with
  | none => failure
  | some last =>
    if element.isSome then return .element parts.dropLast last
    else return .table parts.dropLast last

/-- A section. -/
def scanSection : Scan Section := do
  let header ← scanHeader
  lineEnd
  emptyLines
  return ⟨header, ← scanLines⟩

/-- A document. A byte order mark may stand before it. -/
def scan : Scan Document := do
  let _ ← Scan.option (Scan.char '\ufeff')
  emptyLines
  let lines ← scanLines
  return ⟨lines, ← Scan.many scanSection⟩

/-- Adds a section to the tables before it. -/
def addSection (t : Table) (s : Section) : Option Table :=
  match s.header with
  | .table path key => t.addTable path key s.lines
  | .element path key => t.addElement path key s.lines

/-- The entries of a document, unless it defines something twice. -/
def entries? (d : Document) : Option Entries := do
  let top ← (Table.empty .header).addLines d.lines
  let all ← d.sections.foldlM addSection top
  return all.finish

end Document

/-- The entries of the document a text holds, if the text is a document. -/
def parse (text : String) : Option Entries :=
  (Document.scan.parse text).bind Document.entries?

end ViewConstraints.Toml

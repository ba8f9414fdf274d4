import ViewConstraints.Toml.Value

/-!
# Tables under construction

A document defines its tables piece by piece: by headers, by dotted keys, and by headers of their
sub-tables. `Table` remembers how each table came about, which decides what may still be added to
it: a header may define a table that only headers of sub-tables have mentioned, a dotted key may
extend a table that dotted keys made, and nothing else defined may be defined again.
-/

namespace ViewConstraints.Toml

/-- How a table came about. -/
inductive Origin where
  /-- By a header of its own, or as the whole document. -/
  | header
  /-- As part of a dotted key. -/
  | dotted
  /-- As part of the header of another table. -/
  | passed
  deriving DecidableEq, Repr

mutual

/-- A table that may still grow. -/
inductive Table where
  | mk (origin : Origin) (entries : List (String × Item))

/-- What a key of such a table holds. -/
inductive Item where
  /-- A value that is complete. -/
  | value (value : Value)
  /-- A table that may still grow. -/
  | table (table : Table)
  /-- Tables with a header each, of which the last may still grow. -/
  | tables (earlier : List Table) (last : Table)

end

namespace Table

/-- How a table came about. -/
def origin : Table → Origin
  | mk origin _ => origin

/-- What a table holds, in document order. -/
def entries : Table → List (String × Item)
  | mk _ entries => entries

/-- A table without keys. -/
def empty (origin : Origin) : Table := mk origin []

/-- What a key holds. -/
def get? (t : Table) (key : String) : Option Item := t.entries.lookup key

/-- A table with one more key at the end. -/
def push (t : Table) (key : String) (item : Item) : Table :=
  mk t.origin (t.entries ++ [(key, item)])

/-- A table with another item for a key, in the same place. -/
def replace (t : Table) (key : String) (item : Item) : Table :=
  mk t.origin (t.entries.map fun e => if e.1 = key then (key, item) else e)

/-- A table without a key. -/
def erase (t : Table) (key : String) : Table :=
  mk t.origin (t.entries.filter fun e => e.1 ≠ key)

/-- Whether a walk may go through a table. A dotted key may not go through a table that has a header
of its own. -/
def passable (byDots : Bool) (t : Table) : Bool := !byDots || t.origin ≠ .header

/-- Walks along the parts of a key and changes the table it leads to. Parts that hold nothing yet
become tables, and an array of tables is entered at its last element. -/
def update (byDots : Bool) (f : Table → Option Table) : List String → Table → Option Table
  | [], t => f t
  | key :: path, t =>
    match t.get? key with
    | none => do
      let child ← update byDots f path (empty (if byDots then .dotted else .passed))
      return t.push key (.table child)
    | some (.value _) => none
    | some (.table child) => do
      if !passable byDots child then none
      let child ← update byDots f path child
      return t.replace key (.table child)
    | some (.tables earlier last) => do
      let last ← update byDots f path last
      return t.replace key (.tables earlier last)

/-- Adds a value under a key. The last table on a dotted key must have been made by dotted keys, and a
key that is not dotted may not be added to such a table. -/
def addValue (t : Table) (path : List String) (key : String) (value : Value) : Option Table :=
  t.update true (fun target =>
    if decide (target.origin = .dotted) == path.isEmpty then none
    else if (target.get? key).isSome then none
    else some (target.push key (.value value))) path

/-- A key with its value, as one line of a table gives it. -/
structure Line where
  /-- The parts of the key before the last. -/
  path : List String
  key : String
  value : Value

/-- Adds lines in order. -/
def addLines (t : Table) (lines : List Line) : Option Table :=
  lines.foldlM (fun t l => t.addValue l.path l.key l.value) t

/-- Adds a table with a header. A table that only headers of sub-tables have mentioned so far takes
its place in the order from its own header. -/
def addTable (t : Table) (path : List String) (key : String) (lines : List Line) : Option Table :=
  t.update false (fun parent => do
    let start ← match parent.get? key with
      | none => some (empty .header)
      | some (.table existing) =>
        if existing.origin = .passed then some (mk .header existing.entries) else none
      | some _ => none
    let body ← start.addLines lines
    return (parent.erase key).push key (.table body)) path

/-- Adds an element to an array of tables. -/
def addElement (t : Table) (path : List String) (key : String) (lines : List Line) :
    Option Table :=
  t.update false (fun parent => do
    let body ← (empty .header).addLines lines
    match parent.get? key with
    | none => return parent.push key (.tables [] body)
    | some (.tables earlier last) => return parent.replace key (.tables (earlier ++ [last]) body)
    | some _ => none) path

end Table

mutual

/-- The finished entries of a table. -/
def Table.finish : Table → Entries
  | .mk _ entries => finishEntries entries

/-- The finished value of an item. -/
def Item.finish : Item → Value
  | .value v => v
  | .table t => .table t.finish
  | .tables earlier last => .tables (finishTables earlier ++ [last.finish])

/-- The finished values of entries. -/
def finishEntries : List (String × Item) → Entries
  | [] => []
  | (key, item) :: rest => (key, item.finish) :: finishEntries rest

/-- The finished entries of several tables. -/
def finishTables : List Table → List Entries
  | [] => []
  | t :: rest => t.finish :: finishTables rest

end

end ViewConstraints.Toml

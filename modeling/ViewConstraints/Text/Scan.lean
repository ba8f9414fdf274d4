/-!
# Reading text from the left

A `Scan` takes characters off the front of a text and gives a value, or fails. A scan that fails has
taken nothing, so alternatives can be tried in order with `<|>`.
-/

namespace ViewConstraints.Text

/-- A reader that takes characters off the front of a text. -/
abbrev Scan : Type → Type := StateT (List Char) Option

namespace Scan

variable {α β : Type}

/-- One character with a property. -/
def satisfy (p : Char → Bool) : Scan Char
  | c :: rest => if p c then some (c, rest) else none
  | [] => none

/-- A given character. -/
def char (c : Char) : Scan Char := satisfy fun d => decide (d = c)

/-- A given sequence of characters. -/
def literal (s : List Char) : Scan Unit := fun text =>
  if s.isPrefixOf text then some ((), text.drop s.length) else none

/-- The longest run of characters with a property, which may be empty. -/
def run (p : Char → Bool) : Scan (List Char) := fun text => some (text.span p)

/-- Nothing, at the end of the text. -/
def atEnd : Scan Unit
  | [] => some ((), [])
  | _ :: _ => none

/-- Nothing, unless the next character has a property. -/
def notFollowedBy (p : Char → Bool) : Scan Unit := fun text =>
  match text with
  | c :: _ => if p c then none else some ((), text)
  | [] => some ((), text)

/-- What a scan gives, or `none` with nothing taken where it fails. -/
def option (p : Scan α) : Scan (Option α) := fun text =>
  match p text with
  | some (a, rest) => some (some a, rest)
  | none => some (none, text)

/-- As many repetitions of a scan as there are. A repetition that takes nothing is the last. -/
def manyFrom (p : Scan α) (text : List Char) : List α × List Char :=
  match p text with
  | none => ([], text)
  | some (a, rest) =>
    if rest.length < text.length then
      let (as, rest) := manyFrom p rest
      (a :: as, rest)
    else ([a], rest)
termination_by text.length

/-- As many repetitions of a scan as there are. -/
def many (p : Scan α) : Scan (List α) := fun text => some (manyFrom p text)

/-- At least one repetition of a scan. -/
def many1 (p : Scan α) : Scan (List α) := do
  let first ← p
  let rest ← many p
  return first :: rest

/-- At least one repetition of a scan, with a separator between repetitions. -/
def separated1 (p : Scan α) (separator : Scan β) : Scan (List α) := do
  let first ← p
  let rest ← many (separator *> p)
  return first :: rest

/-- Reads a whole text. -/
def parse (p : Scan α) (text : String) : Option α :=
  ((p <* atEnd) text.toList).map Prod.fst

end Scan

end ViewConstraints.Text

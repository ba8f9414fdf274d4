import ViewConstraints.OrderedMap
import ViewConstraints.Scalar

/-!
# Symbols and rows of a tableau

A row says that a basic symbol equals a constant plus a sum of multiples of other symbols. Rows are
sparse: a cell whose coefficient comes near zero is dropped, and `Row.coefficient` reads a missing
cell as zero.
-/

namespace ViewConstraints.Simplex

/-- What a symbol stands for: an unknown of the problem, the slack of an inequality, the error of a
constraint that may be missed, or the marker of a required equation. -/
inductive SymbolKind where
  | external
  | slack
  | error
  | dummy
  deriving DecidableEq, Repr

/-- A symbol of a tableau. Symbols are numbered in the order of their creation. -/
structure Symbol where
  id : Nat
  kind : SymbolKind
  deriving DecidableEq, Repr

namespace Symbol

instance : LT Symbol := ⟨fun a b => a.id < b.id⟩

instance : DecidableLT Symbol := fun a b => inferInstanceAs (Decidable (a.id < b.id))

/-- Whether the symbol stands for an unknown of the problem. -/
def isExternal (s : Symbol) : Bool := s.kind = .external

/-- Whether the symbol marks a required equation; such a symbol is always zero. -/
def isDummy (s : Symbol) : Bool := s.kind = .dummy

/-- Whether the symbol is a slack or an error, the kinds that are never negative and may enter the
basis. -/
def isPivotable (s : Symbol) : Bool := s.kind = .slack || s.kind = .error

end Symbol

/-- A constant plus multiples of symbols. -/
structure Row (K : Type) where
  constant : K
  cells : OrderedMap Symbol K := ∅

namespace Row

variable {K : Type} [Scalar K]

instance : Inhabited (Row K) := ⟨⟨0.0, ∅⟩⟩

/-- The multiple of a symbol in a row. -/
def coefficient (r : Row K) (s : Symbol) : K := (r.cells.get? s).getD 0.0

/-- Adds a multiple of a symbol. A multiple near zero leaves no cell. -/
def addCell (r : Row K) (s : Symbol) (c : K) : Row K :=
  match r.cells.get? s with
  | none => if isNearZero c then r else { r with cells := r.cells.insert s c }
  | some old =>
    let sum := old + c
    if isNearZero sum then { r with cells := r.cells.erase s }
    else { r with cells := r.cells.insert s sum }

/-- Adds a multiple of another row. -/
def addRow (r other : Row K) (c : K) : Row K :=
  other.cells.foldl (fun r s v => r.addCell s (v * c)) { r with constant := r.constant + other.constant * c }

/-- Forgets a symbol. -/
def dropCell (r : Row K) (s : Symbol) : Row K := { r with cells := r.cells.erase s }

/-- The row with every sign turned. -/
def negate (r : Row K) : Row K :=
  { constant := -r.constant, cells := r.cells.map fun _ v => -v }

/-- A multiple of a row. -/
def scale (r : Row K) (c : K) : Row K :=
  { constant := r.constant * c, cells := r.cells.map fun _ v => v * c }

/-- Solves the equation "row equals zero" for one of its symbols: the result is the row the symbol
equals. A row without the symbol is left as it is. -/
def solveFor (r : Row K) (s : Symbol) : Row K :=
  match r.cells.get? s with
  | none => r
  | some c => (r.dropCell s).scale (-1.0 / c)

/-- Solves the equation "`basic` equals row" for `s`, which is to take the place of `basic`. -/
def exchange (r : Row K) (basic s : Symbol) : Row K := (r.addCell basic (-1.0)).solveFor s

/-- Puts the row that `s` equals in place of `s`. -/
def substitute (r : Row K) (s : Symbol) (row : Row K) : Row K :=
  match r.cells.get? s with
  | none => r
  | some c => (r.dropCell s).addRow row c

/-- Whether putting `row` in place of `s` moves the constant. -/
def movesConstant (r : Row K) (s : Symbol) (row : Row K) : Bool :=
  match r.cells.get? s with
  | none => false
  | some c => row.constant * c != 0.0

/-- Whether every symbol of the row marks a required equation. -/
def allDummy (r : Row K) : Bool := r.cells.keys.all Symbol.isDummy

end Row

end ViewConstraints.Simplex

import ViewConstraints.Handle
import ViewConstraints.Scalar

/-!
# Linear expressions over the unknowns of views

A view contributes four unknowns: where its left and top edges are, and how wide and high it is. An
expression is a constant plus a list of terms; a variable may occur in several terms, and terms are
not merged, because the order in which a solver meets them is part of what it does.

`Expression.eval` is the meaning of an expression at an assignment of numbers to the unknowns.
-/

namespace ViewConstraints.Linear

/-- The quantities of a view that a solver determines. -/
inductive Quantity where
  | left
  | top
  | width
  | height
  deriving DecidableEq, Repr

/-- The place of a quantity among the four. -/
def Quantity.index : Quantity → Nat
  | left => 0
  | top => 1
  | width => 2
  | height => 3

/-- An unknown: one quantity of one view. -/
structure Variable where
  view : ViewId
  quantity : Quantity
  deriving DecidableEq, Repr

/-- The place of an unknown among all: view by view. -/
def Variable.rank (v : Variable) : Nat := 4 * v.view + v.quantity.index

instance : LT Variable := ⟨fun a b => a.rank < b.rank⟩

instance : DecidableLT Variable := fun a b => inferInstanceAs (Decidable (a.rank < b.rank))

/-- A multiple of an unknown. -/
structure Term (K : Type) where
  unknown : Variable
  coefficient : K

/-- A sum of terms and a constant. -/
structure Expression (K : Type) where
  terms : List (Term K)
  constant : K

variable {K : Type} [Scalar K]

namespace Expression

/-- The value of an unknown by itself. -/
def ofVariable (v : Variable) : Expression K := ⟨[⟨v, 1.0⟩], 0.0⟩

/-- A number added to an expression. -/
def addConstant (e : Expression K) (c : K) : Expression K := { e with constant := e.constant + c }

/-- A number taken off an expression. -/
def subConstant (e : Expression K) (c : K) : Expression K := { e with constant := e.constant - c }

/-- The sum of two expressions, terms of the first before terms of the second. -/
def add (a b : Expression K) : Expression K := ⟨a.terms ++ b.terms, a.constant + b.constant⟩

/-- An expression with every sign turned. -/
def neg (e : Expression K) : Expression K :=
  ⟨e.terms.map fun t => { t with coefficient := -t.coefficient }, -e.constant⟩

/-- The difference of two expressions. -/
def sub (a b : Expression K) : Expression K := a.add b.neg

/-- A multiple of an expression. -/
def scale (e : Expression K) (c : K) : Expression K :=
  ⟨e.terms.map fun t => { t with coefficient := t.coefficient * c }, e.constant * c⟩

/-- The number an expression stands for when the unknowns have the values `a` gives them. -/
def eval (a : Variable → K) (e : Expression K) : K :=
  e.terms.foldr (fun t sum => t.coefficient * a t.unknown + sum) e.constant

end Expression

end ViewConstraints.Linear

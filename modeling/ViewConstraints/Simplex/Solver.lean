import ViewConstraints.Linear.Constraint
import ViewConstraints.Simplex.Row

/-!
# An incremental simplex solver for constraints with priorities

A `Solver` holds a set of linear constraints and a tableau solved for them. Constraints are added
and removed one at a time; after each change the tableau is made optimal again, so that required
constraints hold and the weighted errors of the others are least. Changes of the unknowns are
reported by difference (`Solver.fetchChanges`).

Ties are broken by the age of symbols: of all symbols that could enter or leave the basis, the
oldest does. An addition that is refused leaves its mentions of unknowns and the row it was tried
with behind, and a removal has dropped the constraint from the held set before any step of it can
fail.
-/

namespace ViewConstraints.Simplex

open ViewConstraints.Linear

/-- How the tableau itself can fail. -/
inductive Failure where
  /-- A symbol could grow without limit and the cost fall without limit. -/
  | unboundedObjective
  /-- A constraint to be removed has no row through which it could leave. -/
  | noLeavingRow
  /-- More pivots were made than there are sets of basic symbols. -/
  | pivotLimit
  deriving DecidableEq, Repr

/-- The wording of a failure. -/
def Failure.message : Failure → String
  | unboundedObjective => "The objective is unbounded."
  | noLeavingRow => "Failed to find leaving row."
  | pivotLimit => "The pivot limit was reached."

/-- Why a constraint could not be added or removed. -/
inductive Refusal where
  /-- The constraint conflicts with those that are required. -/
  | unsatisfiable
  /-- The constraint to add is held already. -/
  | duplicate
  /-- The constraint to remove is not held. -/
  | unknown
  /-- The tableau failed. -/
  | internal (failure : Failure)
  deriving DecidableEq, Repr

/-- The symbols that a constraint brought into the tableau. -/
structure Tag where
  /-- The symbol by which the constraint leaves the tableau. -/
  marker : Symbol
  /-- A second symbol, if the constraint may be missed. -/
  other : Option Symbol
  deriving DecidableEq, Repr

/-- A constraint in the solver, with its symbols. -/
structure Held (K : Type) where
  constraint : Constraint K
  tag : Tag

/-- What the solver knows of an unknown. -/
structure Tracked (K : Type) where
  symbol : Symbol
  /-- The number of terms of held constraints that mention the unknown. -/
  mentions : Nat
  /-- The value last reported, if any was. -/
  reported : Option K

/-- A set of constraints and the tableau solved for them. -/
structure Solver (K : Type) where
  /-- The constraints held, by their numbers. -/
  held : OrderedMap Nat (Held K) := ∅
  /-- The unknowns that occur in constraints. -/
  tracked : OrderedMap Variable (Tracked K) := ∅
  /-- The unknown that an external symbol stands for. -/
  variableOf : OrderedMap Symbol Variable := ∅
  /-- The rows of the basic symbols. -/
  rows : OrderedMap Symbol (Row K) := ∅
  /-- The weighted sum of errors, which is kept least. -/
  objective : Row K
  /-- The row of an artificial symbol while one is in use. -/
  artificial : Option (Row K) := none
  /-- The unknowns that may have changed since the last report. -/
  changed : List Variable := []
  /-- Whether the changes on record have been reported once. -/
  reportedChanges : Bool := false
  /-- The number of the next symbol. -/
  nextSymbol : Nat := 1

variable {K : Type} [Scalar K]

namespace Solver

/-- A solver without constraints. -/
def empty : Solver K := { objective := ⟨0.0, ∅⟩ }

/-- The constraints in the solver. -/
def constraints (s : Solver K) : List (Constraint K) := s.held.values.map Held.constraint

/-- Whether the constraint with this number is in the solver. -/
def holds (s : Solver K) (id : Nat) : Bool := s.held.contains id

/-- The value of an unknown in the current solution: the constant of its row, and zero if it has no
row. -/
def valueOf (s : Solver K) (symbol : Symbol) : K :=
  match s.rows.get? symbol with
  | some row => row.constant
  | none => 0.0

/-! ## Symbols -/

/-- A symbol that has not been used before. -/
def fresh (s : Solver K) (kind : SymbolKind) : Symbol × Solver K :=
  (⟨s.nextSymbol, kind⟩, { s with nextSymbol := s.nextSymbol + 1 })

/-- Gives back the number of a symbol that nothing uses, if no symbol was made after it. -/
def release (s : Solver K) (symbol : Symbol) : Solver K :=
  if symbol.id + 1 = s.nextSymbol then { s with nextSymbol := symbol.id } else s

/-- The symbol of an unknown, counting one more mention of it. -/
def mention (s : Solver K) (v : Variable) : Symbol × Solver K :=
  match s.tracked.get? v with
  | some t => (t.symbol, { s with tracked := s.tracked.insert v { t with mentions := t.mentions + 1 } })
  | none =>
    let (symbol, s) := s.fresh .external
    (symbol, { s with
      tracked := s.tracked.insert v ⟨symbol, 1, none⟩
      variableOf := s.variableOf.insert symbol v })

/-- Counts one mention of an unknown less, and forgets the unknown after the last. -/
def unmention (s : Solver K) (v : Variable) : Solver K :=
  match s.tracked.get? v with
  | none => s
  | some t =>
    if t.mentions - 1 = 0 then
      { s with tracked := s.tracked.erase v, variableOf := s.variableOf.erase t.symbol }
    else { s with tracked := s.tracked.insert v { t with mentions := t.mentions - 1 } }

/-! ## Changes of the unknowns -/

/-- Records that an unknown may have a new value. The first record after a report drops the changes
that were reported. -/
def markChanged (s : Solver K) (symbol : Symbol) : Solver K :=
  match s.variableOf.get? symbol with
  | none => s
  | some v =>
    let earlier := if s.reportedChanges then [] else s.changed
    { s with
      changed := if v ∈ earlier then earlier else earlier ++ [v]
      reportedChanges := false }

/-- Reports one unknown, if it is still in use and its value is not the one reported last. -/
def reportVariable (report : List (Variable × K) × Solver K) (v : Variable) :
    List (Variable × K) × Solver K :=
  let s := report.2
  match s.tracked.get? v with
  | none => report
  | some t =>
    let value := s.valueOf t.symbol
    let same := match t.reported with
      | none => false
      | some old => old == value
    if same then report
    else (report.1 ++ [(v, value)],
      { s with tracked := s.tracked.insert v { t with reported := some value } })

/-- The unknowns whose values differ from the ones reported last, with their new values. Changes that
have been on record since the report before are dropped first. -/
def fetchChanges (s : Solver K) : List (Variable × K) × Solver K :=
  let s :=
    if s.reportedChanges then { s with changed := [], reportedChanges := false }
    else { s with reportedChanges := true }
  s.changed.foldl reportVariable ([], s)

/-! ## Pivoting -/

/-- Puts the row that `symbol` equals in its place everywhere. -/
def substitute (s : Solver K) (symbol : Symbol) (row : Row K) : Solver K :=
  let moved := s.rows.entries.filter fun e => e.1.isExternal && e.2.movesConstant symbol row
  let s := moved.foldl (fun s e => s.markChanged e.1) s
  { s with
    rows := s.rows.map fun _ r => r.substitute symbol row
    objective := s.objective.substitute symbol row
    artificial := s.artificial.map fun r => r.substitute symbol row }

/-- Makes `symbol` basic with the given row. -/
def install (s : Solver K) (symbol : Symbol) (row : Row K) : Solver K :=
  let s := s.substitute symbol row
  let s := if symbol.isExternal && row.constant != 0.0 then s.markChanged symbol else s
  { s with rows := s.rows.insert symbol row }

/-- The symbol whose growth lowers the cost: the oldest one with a negative coefficient. -/
def entering? (objective : Row K) : Option Symbol :=
  (objective.cells.find? fun s c => !s.isDummy && decide (c < 0.0)).map Prod.fst

/-- Keeps the row with the smaller bound. A row whose bound is not below infinity is never taken, and
of equal bounds the first stays. -/
def tighter (best : Option (Symbol × K)) (symbol : Symbol) (bound : K) : Option (Symbol × K) :=
  match best with
  | none => if Scalar.belowInfinity bound then some (symbol, bound) else none
  | some (_, least) => if bound < least then some (symbol, bound) else best

/-- The basic symbol that first reaches zero when `entering` grows. -/
def leaving? (s : Solver K) (entering : Symbol) : Option Symbol :=
  let best := s.rows.foldl (fun best symbol row =>
    let c := row.coefficient entering
    if !symbol.isExternal && decide (c < 0.0) then tighter best symbol (-row.constant / c)
    else best) none
  best.map Prod.fst

/-- The cost that is being made least: the weighted errors, or the artificial row. -/
def cost (s : Solver K) (ofArtificial : Bool) : Row K :=
  if ofArtificial then s.artificial.getD s.objective else s.objective

/-- Makes `entering` basic in the place of `leaving`, whose row is `row`. -/
def pivot (s : Solver K) (leaving entering : Symbol) (row : Row K) : Solver K :=
  { s with rows := s.rows.erase leaving }.install entering (row.exchange leaving entering)

/-- Pivots until no symbol lowers the cost any more, at most `fuel` times. -/
def optimiseFor (ofArtificial : Bool) : Nat → Solver K → Except Failure Unit × Solver K
  | 0, s => (.error .pivotLimit, s)
  | fuel + 1, s =>
    match entering? (s.cost ofArtificial) with
    | none => (.ok (), s)
    | some entering =>
      match s.leaving? entering with
      | none => (.error .unboundedObjective, s)
      | some leaving =>
        match s.rows.get? leaving with
        | none => (.error .unboundedObjective, s)
        | some row => optimiseFor ofArtificial fuel (s.pivot leaving entering row)

/-- Pivots until the cost is least. Breaking ties by age never returns to a set of basic symbols in
exact arithmetic, so the number of such sets bounds the pivots. -/
def optimise (s : Solver K) (ofArtificial : Bool) : Except Failure Unit × Solver K :=
  optimiseFor ofArtificial (Nat.pow 2 s.nextSymbol) s

/-! ## Adding a constraint -/

/-- Adds a term to a row under construction, with the row of its unknown if that is basic. -/
def addTerm (acc : Row K × Solver K) (t : Term K) : Row K × Solver K :=
  if isNearZero t.coefficient then acc
  else
    let (symbol, s) := acc.2.mention t.unknown
    match s.rows.get? symbol with
    | some basic => (acc.1.addRow basic t.coefficient, s)
    | none => (acc.1.addCell symbol t.coefficient, s)

/-- The symbols that make an inequality an equation: a slack, which is taken off a greater side and
added to a smaller one, and an error in the other direction if the constraint may be missed. -/
def addInequality (s : Solver K) (row : Row K) (slackSign : K) (priority : Priority) :
    Row K × Tag × Solver K :=
  let (slack, s) := s.fresh .slack
  let row := row.addCell slack slackSign
  match priority with
  | .required => (row, ⟨slack, none⟩, s)
  | _ =>
    let (error, s) := s.fresh .error
    (row.addCell error (-slackSign), ⟨slack, some error⟩,
      { s with objective := s.objective.addCell error priority.weight })

/-- The symbols of an equation: a dummy that marks it, or an error on either side if it may be
missed. -/
def addEquation (s : Solver K) (row : Row K) (priority : Priority) : Row K × Tag × Solver K :=
  match priority with
  | .required =>
    let (dummy, s) := s.fresh .dummy
    (row.addCell dummy 1.0, ⟨dummy, none⟩, s)
  | _ =>
    let (above, s) := s.fresh .error
    let (below, s) := s.fresh .error
    let objective := (s.objective.addCell above priority.weight).addCell below priority.weight
    ((row.addCell above (-1.0)).addCell below 1.0, ⟨above, some below⟩, { s with objective })

/-- The row of a constraint in terms of the symbols that are not basic, with its symbols and a
constant that is not negative. -/
def rowOf (s : Solver K) (c : Constraint K) : Row K × Tag × Solver K :=
  let (row, s) := c.expression.terms.foldl addTerm (⟨c.expression.constant, ∅⟩, s)
  let (row, tag, s) := match c.relation with
    | .lessOrEqual => s.addInequality row 1.0 c.priority
    | .greaterOrEqual => s.addInequality row (-1.0) c.priority
    | .equal => s.addEquation row c.priority
  (if row.constant < 0.0 then row.negate else row, tag, s)

/-- The symbol a new row is solved for: an unknown if it mentions one, or else a slack or error of the
constraint that occurs negatively, so that it is not negative in the solution. -/
def subject? (row : Row K) (tag : Tag) : Option Symbol :=
  match row.cells.find? fun s _ => s.isExternal with
  | some (s, _) => some s
  | none =>
    let suits (s : Symbol) : Bool := s.isPivotable && decide (row.coefficient s < 0.0)
    if suits tag.marker then some tag.marker else tag.other.filter suits

/-- Makes a row basic through a new artificial symbol, whose value becomes the cost. -/
def startArtificial (s : Solver K) (row : Row K) : Symbol × Solver K :=
  let (symbol, s) := s.fresh .slack
  (symbol, { s with rows := s.rows.insert symbol row, artificial := some row })

/-- Forgets a symbol that is not basic. -/
def forget (s : Solver K) (symbol : Symbol) : Solver K :=
  { s with
    rows := s.rows.map fun _ r => r.dropCell symbol
    objective := s.objective.dropCell symbol }

/-- Takes an artificial symbol out of the tableau. If it is basic, its row stays without it, solved
for a symbol that may be basic. Answers whether there was no need of such a symbol in vain. -/
def dropArtificial (s : Solver K) (symbol : Symbol) : Bool × Solver K :=
  match s.rows.get? symbol with
  | none => (true, s.forget symbol)
  | some basic =>
    let s := { s with rows := s.rows.erase symbol }
    if basic.cells.isEmpty then (true, s)
    else
      match basic.cells.find? fun s _ => s.isPivotable with
      | none => (false, s)
      | some (entering, _) =>
        let solved := basic.exchange symbol entering
        let s := s.substitute entering solved
        (true, { s with rows := s.rows.insert entering solved }.forget symbol)

/-- Makes a row basic through an artificial symbol: the symbol is basic at first and is then driven to
zero. Answers whether that succeeded, in which case the row holds. A row that cannot be driven to
zero stays in the tableau without its artificial symbol, and a failure on the way leaves the symbol
in place. -/
def addArtificially (s : Solver K) (row : Row K) : Except Failure Bool × Solver K :=
  let (symbol, s) := s.startArtificial row
  match s.optimise true with
  | (.error failure, s) => (.error failure, s)
  | (.ok (), s) =>
    let success := isNearZero (s.cost true).constant
    let (replaced, s) := { s with artificial := none }.dropArtificial symbol
    (.ok (success && replaced), s)

/-- Brings the row of a new constraint into the tableau. -/
def addRow (s : Solver K) (row : Row K) (tag : Tag) : Except Refusal Unit × Solver K :=
  let subject := subject? row tag
  if subject.isNone && row.allDummy then
    if isNearZero row.constant then (.ok (), s.install tag.marker (row.solveFor tag.marker))
    else (.error .unsatisfiable, s.release tag.marker)
  else
    match subject with
    | some symbol => (.ok (), s.install symbol (row.solveFor symbol))
    | none =>
      match s.addArtificially row with
      | (.ok true, s) => (.ok (), s)
      | (.ok false, s) => (.error .unsatisfiable, s)
      | (.error failure, s) => (.error (.internal failure), s)

/-- Adds a constraint and makes the tableau optimal. A failure to do the latter leaves the constraint
in the solver. -/
def addConstraint (s : Solver K) (c : Constraint K) : Except Refusal Unit × Solver K :=
  if s.holds c.id then (.error .duplicate, s)
  else
    let (row, tag, s) := s.rowOf c
    match s.addRow row tag with
    | (.error refusal, s) => (.error refusal, s)
    | (.ok (), s) =>
      let s := { s with held := s.held.insert c.id ⟨c, tag⟩ }
      match s.optimise false with
      | (.ok (), s) => (.ok (), s)
      | (.error failure, s) => (.error (.internal failure), s)

/-! ## Removing a constraint -/

/-- Takes the cost of an error out of the objective, through the error's row if it is basic. -/
def removeErrorCost (s : Solver K) (error : Symbol) (priority : Priority) : Solver K :=
  let weight : K := -priority.weight
  { s with
    objective := match s.rows.get? error with
      | some row => s.objective.addRow row weight
      | none => s.objective.addCell error weight }

/-- Takes the cost of a constraint out of the objective. -/
def removeCost (s : Solver K) (tag : Tag) (priority : Priority) : Solver K :=
  let s := if tag.marker.kind = .error then s.removeErrorCost tag.marker priority else s
  match tag.other with
  | some other => if other.kind = .error then s.removeErrorCost other priority else s
  | none => s

/-- The best rows through which a marker can leave, in order of preference: the tightest in which the
marker occurs negatively, the tightest in which it occurs positively, and the last row of an
unknown. -/
structure LeavingRows (K : Type) where
  negative : Option (Symbol × K) := none
  positive : Option (Symbol × K) := none
  external : Option Symbol := none

/-- Takes one more row into account. -/
def LeavingRows.consider (marker : Symbol) (best : LeavingRows K) (symbol : Symbol) (row : Row K) :
    LeavingRows K :=
  let c := row.coefficient marker
  if c == 0.0 then best
  else if symbol.isExternal then { best with external := some symbol }
  else if c < 0.0 then { best with negative := tighter best.negative symbol (-row.constant / c) }
  else { best with positive := tighter best.positive symbol (row.constant / c) }

/-- The basic symbol whose row the marker can replace. -/
def markerLeaving? (s : Solver K) (marker : Symbol) : Option Symbol :=
  let best := s.rows.foldl (LeavingRows.consider marker) {}
  (best.negative.map Prod.fst).or ((best.positive.map Prod.fst).or best.external)

/-- Takes the marker of a removed constraint out of the tableau. A marker that is not basic is made
basic first. -/
def dropMarker (s : Solver K) (marker : Symbol) : Except Failure Unit × Solver K :=
  match s.rows.get? marker with
  | some _ => (.ok (), { s with rows := s.rows.erase marker })
  | none =>
    match s.markerLeaving? marker with
    | none => (.error .noLeavingRow, s)
    | some leaving =>
      match s.rows.get? leaving with
      | none => (.error .noLeavingRow, s)
      | some row =>
        let s := if leaving.isExternal && row.constant != 0.0 then s.markChanged leaving else s
        let s := { s with rows := s.rows.erase leaving }
        (.ok (), s.substitute marker (row.exchange leaving marker))

/-- Removes a constraint and makes the tableau optimal. The constraint is out of the held set before
any step that can fail, and its unknowns are only given up when no step has failed. -/
def removeConstraint (s : Solver K) (c : Constraint K) : Except Refusal Unit × Solver K :=
  match s.held.get? c.id with
  | none => (.error .unknown, s)
  | some held =>
    let s := { s with held := s.held.erase c.id }
    let s := s.removeCost held.tag c.priority
    match s.dropMarker held.tag.marker with
    | (.error failure, s) => (.error (.internal failure), s)
    | (.ok (), s) =>
      match s.optimise false with
      | (.error failure, s) => (.error (.internal failure), s)
      | (.ok (), s) =>
        let mentioned := c.expression.terms.filter fun t => !isNearZero t.coefficient
        (.ok (), mentioned.foldl (fun s t => s.unmention t.unknown) s)

end Solver

end ViewConstraints.Simplex

/-!
# TOML values

The values a TOML document can hold. Keys of a table keep the order in which the document defines
them. A date-time is told apart from other values, but which one it is does not matter here.
-/

namespace ViewConstraints.Toml

/-- A value of a document. -/
inductive Value where
  | string (text : String)
  | integer (n : Int)
  | float (x : Float)
  | boolean (b : Bool)
  | dateTime
  /-- An array written between brackets. -/
  | array (items : List Value)
  /-- An array whose elements are tables with headers of their own. -/
  | tables (elements : List (List (String × Value)))
  | table (entries : List (String × Value))

/-- The entries of a table, in document order. -/
abbrev Entries := List (String × Value)

/-- The name of a value's type. -/
def Value.typeName : Value → String
  | string _ => "string"
  | integer _ => "integer"
  | float _ => "float"
  | boolean _ => "boolean"
  | dateTime => "datetime"
  | array _ | tables _ => "array"
  | table _ => "table"

mutual

/-- Decides whether two values are equal. The instance is written out, since values nest in lists. -/
def Value.decEq : (v w : Value) → Decidable (v = w)
  | .string s, w => match w with
    | .string t => decidable_of_iff (s = t) (by simp)
    | .integer _ | .float _ | .boolean _ | .dateTime | .array _ | .tables _ | .table _ => isFalse nofun
  | .integer m, w => match w with
    | .integer n => decidable_of_iff (m = n) (by simp)
    | .string _ | .float _ | .boolean _ | .dateTime | .array _ | .tables _ | .table _ => isFalse nofun
  | .float x, w => match w with
    | .float y => decidable_of_iff (x = y) (by simp)
    | .string _ | .integer _ | .boolean _ | .dateTime | .array _ | .tables _ | .table _ => isFalse nofun
  | .boolean a, w => match w with
    | .boolean b => decidable_of_iff (a = b) (by simp)
    | .string _ | .integer _ | .float _ | .dateTime | .array _ | .tables _ | .table _ => isFalse nofun
  | .dateTime, w => match w with
    | .dateTime => isTrue rfl
    | .string _ | .integer _ | .float _ | .boolean _ | .array _ | .tables _ | .table _ => isFalse nofun
  | .array items, w => match w with
    | .array others => @decidable_of_iff _ _ (by simp) (decEqItems items others)
    | .string _ | .integer _ | .float _ | .boolean _ | .dateTime | .tables _ | .table _ => isFalse nofun
  | .tables elements, w => match w with
    | .tables others => @decidable_of_iff _ _ (by simp) (decEqElements elements others)
    | .string _ | .integer _ | .float _ | .boolean _ | .dateTime | .array _ | .table _ => isFalse nofun
  | .table entries, w => match w with
    | .table others => @decidable_of_iff _ _ (by simp) (decEqEntries entries others)
    | .string _ | .integer _ | .float _ | .boolean _ | .dateTime | .array _ | .tables _ => isFalse nofun

/-- `Value.decEq` along the items of an array. -/
def decEqItems : (items others : List Value) → Decidable (items = others)
  | [], [] => isTrue rfl
  | [], _ :: _ | _ :: _, [] => isFalse nofun
  | v :: items, w :: others =>
    have := v.decEq w
    have := decEqItems items others
    decidable_of_iff (v = w ∧ items = others) (by simp)

/-- `Value.decEq` along the elements of an array of tables. -/
def decEqElements : (elements others : List Entries) → Decidable (elements = others)
  | [], [] => isTrue rfl
  | [], _ :: _ | _ :: _, [] => isFalse nofun
  | e :: elements, f :: others =>
    have := decEqEntries e f
    have := decEqElements elements others
    decidable_of_iff (e = f ∧ elements = others) (by simp)

/-- `Value.decEq` along the entries of a table. The keys are compared too. -/
def decEqEntries : (entries others : Entries) → Decidable (entries = others)
  | [], [] => isTrue rfl
  | [], _ :: _ | _ :: _, [] => isFalse nofun
  | (k, v) :: entries, (l, w) :: others =>
    have := v.decEq w
    have := decEqEntries entries others
    decidable_of_iff (k = l ∧ v = w ∧ entries = others) (by simp [and_assoc])

end

instance : DecidableEq Value := Value.decEq

end ViewConstraints.Toml

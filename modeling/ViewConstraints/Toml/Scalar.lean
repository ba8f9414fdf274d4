import ViewConstraints.Decimal.Literal
import ViewConstraints.Text.Scan
import ViewConstraints.Toml.Value

/-!
# Scalars and keys of TOML

The written forms of strings, numbers, booleans and date-times, and of keys, as version 1.0 of the
format defines them. A form that is well written but stands for nothing is refused too: an integer of
more than 64 bits, a day that a month does not have, an escaped code point that is no character. Of
the floats that exceed the range of doubles, the positive ones are refused and the negative ones are
negative infinity.
-/

namespace ViewConstraints.Toml

open Text

/-! ## Characters -/

/-- A space or a tab. -/
def isBlank (c : Char) : Bool := c = ' ' || c = '\t'

/-- A character that may stand in a comment: all but controls, and the tab. -/
def isPlain (c : Char) : Bool :=
  c = '\t' || decide (0x20 ≤ c.toNat ∧ c.toNat ≤ 0x7E) || decide (0x80 ≤ c.toNat)

/-- A letter, digit, dash or underscore of the basic alphabet. -/
def isBareKey (c : Char) : Bool := c.isAlphanum || c = '-' || c = '_'

/-- A digit of base sixteen. -/
def isHexDigit (c : Char) : Bool :=
  c.isDigit || decide ('a' ≤ c ∧ c ≤ 'f') || decide ('A' ≤ c ∧ c ≤ 'F')

/-- A digit of base eight. -/
def isOctalDigit (c : Char) : Bool := decide ('0' ≤ c ∧ c ≤ '7')

/-- A digit of base two. -/
def isBinaryDigit (c : Char) : Bool := c = '0' || c = '1'

/-- The value of a digit in any of the bases. -/
def digitValue (c : Char) : Nat :=
  if c.isDigit then c.toNat - '0'.toNat
  else if c.isLower then c.toNat - 'a'.toNat + 10
  else c.toNat - 'A'.toNat + 10

/-- The number that digits write in a base. -/
def ofDigits (base : Nat) (digits : List Char) : Nat :=
  digits.foldl (fun n c => n * base + digitValue c) 0

/-- Spaces and tabs. -/
def blanks : Scan Unit := do
  let _ ← Scan.run isBlank

/-- The end of a line. -/
def newline : Scan Unit := Scan.literal ['\n'] <|> Scan.literal ['\r', '\n']

/-- A comment, up to the end of its line. -/
def comment : Scan Unit := do
  let _ ← Scan.char '#'
  let _ ← Scan.run isPlain

/-! ## Strings -/

/-- The character with a code point written in exactly `n` digits of base sixteen. -/
def codePoint (n : Nat) : Scan Char := do
  let digits ← (List.replicate n ()).mapM fun _ => Scan.satisfy isHexDigit
  let code := ofDigits 16 digits
  if h : code.isValidChar then return Char.ofNatAux code h else failure

/-- An escape in a string, from its backslash on. -/
def escape : Scan Char := do
  let _ ← Scan.char '\\'
  let c ← Scan.satisfy fun _ => true
  match c with
  | 'b' => return '\x08'
  | 't' => return '\t'
  | 'n' => return '\n'
  | 'f' => return '\x0c'
  | 'r' => return '\r'
  | '"' => return '"'
  | '\\' => return '\\'
  | 'u' => codePoint 4
  | 'U' => codePoint 8
  | _ => failure

/-- A string between quotation marks on one line. -/
def basicString : Scan String := do
  let _ ← Scan.char '"'
  let body ← Scan.many
    (escape <|> Scan.satisfy fun c => isPlain c && c != '"' && c != '\\')
  let _ ← Scan.char '"'
  return String.ofList body

/-- A string between apostrophes on one line, without escapes. -/
def literalString : Scan String := do
  let _ ← Scan.char '\''
  let body ← Scan.run fun c => isPlain c && c != '\''
  let _ ← Scan.char '\''
  return String.ofList body

/-- One or two quotes inside a string that three of them end. -/
def innerQuotes (quote : Char) : Scan (List Char) :=
  let quotes (n : Nat) : Scan (List Char) := do
    let text := List.replicate n quote
    Scan.literal text
    Scan.notFollowedBy fun c => decide (c = quote)
    return text
  quotes 2 <|> quotes 1

/-- The three quotes that end a string, after up to two that belong to it. -/
def closingQuotes (quote : Char) : Scan (List Char) :=
  let quotes (n : Nat) : Scan (List Char) := do
    Scan.literal (List.replicate (n + 3) quote)
    return List.replicate n quote
  quotes 2 <|> quotes 1 <|> quotes 0

/-- A string between triple quotes, of pieces that are read with `piece`. A line end right after the
opening quotes does not belong to it, and every other line end is a single line feed. -/
def multilineString (quote : Char) (piece : Scan (List Char)) : Scan String := do
  Scan.literal (List.replicate 3 quote)
  let _ ← Scan.option newline
  let lineFeed : Scan (List Char) := do
    newline
    return ['\n']
  let body ← Scan.many (piece <|> lineFeed <|> innerQuotes quote)
  let last ← closingQuotes quote
  return String.ofList (body.flatten ++ last)

/-- A backslash at the end of a line, which joins the next text that is not blank. -/
def lineContinuation : Scan (List Char) := do
  let _ ← Scan.char '\\'
  blanks
  newline
  let _ ← Scan.many ((do let _ ← Scan.satisfy isBlank) <|> newline)
  return []

/-- A string between triple quotation marks, with escapes. -/
def multilineBasicString : Scan String :=
  let one (p : Scan Char) : Scan (List Char) := return [← p]
  multilineString '"' (lineContinuation <|> one escape <|>
    one (Scan.satisfy fun c => isPlain c && c != '"' && c != '\\'))

/-- A string between triple apostrophes, without escapes. -/
def multilineLiteralString : Scan String :=
  multilineString '\'' do return [← Scan.satisfy fun c => isPlain c && c != '\'']

/-- A string in any of its four forms. -/
def stringValue : Scan String :=
  multilineBasicString <|> basicString <|> multilineLiteralString <|> literalString

/-! ## Numbers -/

/-- Digits of one kind, with single underscores between them allowed. -/
def groupedDigits (p : Char → Bool) : Scan (List Char) := do
  let first ← Scan.satisfy p
  let more ← Scan.many ((Scan.char '_' *> Scan.satisfy p) <|> Scan.satisfy p)
  return first :: more

/-- The digits of a whole number in base ten, which only starts with zero if it is zero. -/
def wholeDigits : Scan (List Char) :=
  (do return [← Scan.char '0']) <|> groupedDigits Char.isDigit

/-- A sign; whether it is a minus. -/
def sign : Scan Bool := do
  let s ← Scan.option (Scan.char '-' <|> Scan.char '+')
  return s = some '-'

/-- An integer that fits 64 bits. -/
def inRange (n : Int) : Scan Value :=
  if -Int.pow 2 63 ≤ n ∧ n < Int.pow 2 63 then return .integer n else failure

/-- An integer in base ten. -/
def decimalInteger : Scan Value := do
  let negative ← sign
  let n := Int.ofNat (ofDigits 10 (← wholeDigits))
  inRange (if negative then -n else n)

/-- An integer in a base that its second character announces. -/
def basedInteger (mark : Char) (base : Nat) (p : Char → Bool) : Scan Value := do
  Scan.literal ['0', mark]
  inRange (Int.ofNat (ofDigits base (← groupedDigits p)))

/-- An integer in any of its bases. -/
def integerValue : Scan Value :=
  basedInteger 'x' 16 isHexDigit <|> basedInteger 'o' 8 isOctalDigit
    <|> basedInteger 'b' 2 isBinaryDigit <|> decimalInteger

/-- The digits after a decimal point. -/
def fractionDigits : Scan (List Char) := Scan.char '.' *> groupedDigits Char.isDigit

/-- An exponent of ten. -/
def exponentPart : Scan Int := do
  let _ ← Scan.char 'e' <|> Scan.char 'E'
  let negative ← sign
  let n := Int.ofNat (ofDigits 10 (← groupedDigits Char.isDigit))
  return if negative then -n else n

/-- A float with a fraction, an exponent, or both. -/
def decimalFloat : Scan Value := do
  let negative ← sign
  let whole ← wholeDigits
  let fraction ← Scan.option fractionDigits
  let exponent ← Scan.option exponentPart
  if fraction.isNone && exponent.isNone then failure
  let digits := whole ++ fraction.getD []
  let places := Int.ofNat (fraction.getD []).length
  let x := Decimal.toDouble (ofDigits 10 digits) (exponent.getD 0 - places)
  if negative then return .float (-x)
  else if x < 1.0 / 0.0 then return .float x
  else failure

/-- An infinity or a number that is none. -/
def specialFloat : Scan Value := do
  let negative ← sign
  let x ← (do Scan.literal ['i', 'n', 'f']; return 1.0 / 0.0)
    <|> (do Scan.literal ['n', 'a', 'n']; return 0.0 / 0.0)
  return .float (if negative then -x else x)

/-- A boolean. -/
def booleanValue : Scan Value :=
  (do Scan.literal ['t', 'r', 'u', 'e']; return .boolean true)
    <|> (do Scan.literal ['f', 'a', 'l', 's', 'e']; return .boolean false)

/-! ## Dates and times -/

/-- A number of exactly `count` digits between two bounds. -/
def fixedDigits (count low high : Nat) : Scan Nat := do
  let digits ← (List.replicate count ()).mapM fun _ => Scan.satisfy Char.isDigit
  let n := ofDigits 10 digits
  if low ≤ n ∧ n ≤ high then return n else failure

/-- The number of days in a month of the civil calendar. -/
def daysInMonth (year month : Nat) : Nat :=
  if month = 2 then
    if year % 4 = 0 ∧ (year % 100 ≠ 0 ∨ year % 400 = 0) then 29 else 28
  else if month = 4 ∨ month = 6 ∨ month = 9 ∨ month = 11 then 30
  else 31

/-- A date. -/
def date : Scan Unit := do
  let year ← fixedDigits 4 0 9999
  let _ ← Scan.char '-'
  let month ← fixedDigits 2 1 12
  let _ ← Scan.char '-'
  let _ ← fixedDigits 2 1 (daysInMonth year month)

/-- A time of day, which may fall into a leap second. -/
def time : Scan Unit := do
  let _ ← fixedDigits 2 0 23
  let _ ← Scan.char ':'
  let _ ← fixedDigits 2 0 59
  let _ ← Scan.char ':'
  let _ ← fixedDigits 2 0 60
  let _ ← Scan.option (Scan.char '.' *> Scan.many1 (Scan.satisfy Char.isDigit))

/-- A distance from universal time. -/
def timeOffset : Scan Unit :=
  (do let _ ← Scan.char 'Z' <|> Scan.char 'z')
    <|> do
      let _ ← Scan.char '+' <|> Scan.char '-'
      let _ ← fixedDigits 2 0 23
      let _ ← Scan.char ':'
      let _ ← fixedDigits 2 0 59

/-- A date, a time, or both with or without an offset. -/
def dateTimeValue : Scan Value :=
  let timeOfDate : Scan Unit := do
    let _ ← Scan.satisfy fun c => c = 'T' || c = 't' || c = ' '
    time
    let _ ← Scan.option timeOffset
  (do date; let _ ← Scan.option timeOfDate; return .dateTime)
    <|> (do time; return .dateTime)

/-- A value that holds no other value. -/
def scalar : Scan Value :=
  (do return .string (← stringValue)) <|> dateTimeValue <|> decimalFloat <|> specialFloat
    <|> integerValue <|> booleanValue

/-! ## Keys -/

/-- Containers and the parts of a key may be nested less deeply than this. -/
def nestingLimit : Nat := 80

/-- One part of a key. -/
def keyPart : Scan String :=
  basicString <|> literalString <|> do
    return String.ofList (← Scan.many1 (Scan.satisfy isBareKey))

/-- A key with its parts, and the blanks around them. -/
def key : Scan (List String) := do
  let parts ← Scan.separated1 (blanks *> keyPart <* blanks) (Scan.char '.')
  if parts.length < nestingLimit then return parts else failure

end ViewConstraints.Toml

import ViewConstraints.Text.DefaultIgnorable
import ViewConstraints.Text.GraphemeExtend
import ViewConstraints.Text.Printable

/-!
# Text for diagnostics

`quoted` writes a text between quotation marks so that every character can be told from it:
quotation marks and backslashes are escaped, and so are characters that do not print, that show
nothing, or that would join the one before. `record` writes a value as its name and fields.
-/

namespace ViewConstraints.Text

/-- An opening brace. -/
def openBrace : String := "\x7b"

/-- A closing brace. -/
def closeBrace : String := "\x7d"

/-- A character by its code point. -/
def codePointEscape (c : Char) : String :=
  "\\u" ++ openBrace ++ String.ofList (Nat.toDigits 16 c.toNat) ++ closeBrace

/-- A character as it stands in a quoted text. -/
def escaped (c : Char) : String :=
  if c = '"' then "\\\""
  else if c = '\\' then "\\\\"
  else if c = '\n' then "\\n"
  else if c = '\r' then "\\r"
  else if c = '\t' then "\\t"
  else if c.toNat = 0 then "\\0"
  else if joinsPrevious c || isIgnorable c || !isPrintable c then codePointEscape c
  else c.toString

/-- A text between quotation marks. -/
def quoted (s : String) : String := "\"" ++ String.join (s.toList.map escaped) ++ "\""

/-- A value written as its name and its fields, whose values are texts already. -/
def record (name : String) (fields : List (String × String)) : String :=
  let body := fields.map fun f => f.1 ++ ": " ++ f.2
  name ++ " " ++ openBrace ++ " " ++ ", ".intercalate body ++ " " ++ closeBrace

end ViewConstraints.Text

import QuantumRisk.Text.Printable

/-!
# Quoted text in messages

Messages show a text between single quotes, or between double quotes if it holds a single quote and
no double quote. The backslash, the quote in use and everything that is not printable is escaped.
-/

namespace QuantumRisk.Text

/-- The lower-case hexadecimal digits of `n`, at least `width` of them. -/
def hex (width n : Nat) : String :=
  let digits := Nat.toDigits 16 n
  String.ofList (List.replicate (width - digits.length) '0' ++ digits)

/-- An escape by number, in the shortest of its three widths. -/
def numericEscape (c : Char) : String :=
  let n := c.toNat
  if n < 0x100 then "\\x" ++ hex 2 n
  else if n < 0x10000 then "\\u" ++ hex 4 n
  else "\\U" ++ hex 8 n

/-- The quotation mark that fits a text. -/
def quoteMark (s : String) : Char :=
  if s.contains '\'' && !s.contains '"' then '"' else '\''

/-- One character of a quoted text. -/
def quotedChar (mark c : Char) : String :=
  if c == mark || c == '\\' then String.ofList ['\\', c]
  else if c == '\n' then "\\n"
  else if c == '\r' then "\\r"
  else if c == '\t' then "\\t"
  else if isPrintable c then c.toString
  else numericEscape c

/-- A text in quotes. -/
def quoted (s : String) : String :=
  let mark := quoteMark s
  mark.toString ++ String.join (s.toList.map (quotedChar mark)) ++ mark.toString

end QuantumRisk.Text

/-!
# Line ends

Text files may end their lines with a line feed, a carriage return or both. Loaded text has line
feeds only.
-/

namespace QuantumRisk.Text

/-- Write every line end as a line feed. -/
def unifyLineEnds : List Char → List Char
  | [] => []
  | '\r' :: '\n' :: rest => '\n' :: unifyLineEnds rest
  | '\r' :: rest => '\n' :: unifyLineEnds rest
  | c :: rest => c :: unifyLineEnds rest

/-- A text with line feeds as its only line ends. -/
def unified (s : String) : String := String.ofList (unifyLineEnds s.toList)

end QuantumRisk.Text

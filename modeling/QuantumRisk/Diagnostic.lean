/-!
# Diagnostics

A syntax error that reading went on from, with the place where it was noticed: lines count from `1`,
columns from `0`.
-/

namespace QuantumRisk

/-- A syntax error and its place. -/
structure Diagnostic where
  line : Int
  column : Int
  message : String
  deriving DecidableEq, Inhabited, Repr

namespace Diagnostic

/-- The place as it is shown to users. -/
def place (d : Diagnostic) : String := toString d.line ++ ":" ++ toString d.column

/-- The one-line text of a diagnostic. -/
def text (d : Diagnostic) : String := "line " ++ d.place ++ " " ++ d.message

end Diagnostic

end QuantumRisk

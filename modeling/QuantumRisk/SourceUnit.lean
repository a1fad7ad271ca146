import QuantumRisk.Path

/-!
# Source units

The text of one contract file together with its path.
-/

namespace QuantumRisk

structure SourceUnit where
  path : Path
  text : String
  deriving DecidableEq, Inhabited

namespace SourceUnit

/-- The name of the file without its directory. -/
def basename (u : SourceUnit) : String := u.path.name

/-- The number of lines; a line break at the end begins a new one. -/
def lineCount (u : SourceUnit) : Nat :=
  if u.text == "" then 0 else u.text.toList.count '\n' + 1

end SourceUnit

end QuantumRisk

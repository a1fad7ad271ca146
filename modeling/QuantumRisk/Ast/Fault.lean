import QuantumRisk.Json.Display
import QuantumRisk.Text.Integer

/-!
# Faults of raw data

A syntax graph may come from anywhere, so a field may hold a value of a kind that cannot be used in
its place. Each fault names its cause; `message` has the wording.
-/

namespace QuantumRisk.Ast

/-- Why a value cannot be used in its place. -/
inductive DataFault where
  /-- A value of this kind cannot be a member of a set. -/
  | unhashable (kind : String)
  /-- A value of this kind lacks an operation. -/
  | lacks (kind : String) (operation : String)
  /-- A text is not an integer. -/
  | badInteger (cause : Text.IntegerFault)
  /-- A value of this kind is not a number. -/
  | notNumeric (kind : String)
  | infinite
  | notANumber
  /-- A value of this kind has no items. -/
  | notIterable (kind : String)
  deriving DecidableEq, Repr

namespace DataFault

def message : DataFault → String
  | .unhashable kind => "unhashable type: " ++ Text.quoted kind
  | .lacks kind operation =>
    Text.quoted kind ++ " object has no attribute " ++ Text.quoted operation
  | .badInteger cause => cause.message
  | .notNumeric kind => "int() argument must be a string, a bytes-like object or a real number, not "
      ++ Text.quoted kind
  | .infinite => "cannot convert float infinity to integer"
  | .notANumber => "cannot convert float NaN to integer"
  | .notIterable kind => Text.quoted kind ++ " object is not iterable"

end DataFault

end QuantumRisk.Ast

namespace QuantumRisk.Json

open Ast (DataFault)

/-- The whole number that a value stands for: texts are read, fractions are cut off. -/
def toInteger : Json → Except DataFault Int
  | .bool b => .ok (if b then 1 else 0)
  | .int n => .ok n
  | .float (.infinite _) => .error .infinite
  | .float .nan => .error .notANumber
  | .float x => .ok (x.truncate?.getD 0)
  | .str s => (Text.readInteger s).mapError .badInteger
  | v => .error (.notNumeric v.kindName)

/-- Can this value be a member of a set? Lists and records cannot. -/
def hashable : Json → Except DataFault Unit
  | .arr _ => .error (.unhashable "list")
  | .obj _ => .error (.unhashable "dict")
  | _ => .ok ()

end QuantumRisk.Json

import QuantumRisk.Json.Basic

/-!
# Limits of what can be written

Values are of any size, but a writer is not made for all of them: it refuses whole numbers with too
many digits, and values that stand in too many others. What it comes to first is what it tells.
-/

namespace QuantumRisk

structure Limits where
  /-- The most digits that a number may have. -/
  digits : Nat
  /-- The most lists and records that a value may stand in, one inside the other. How many there is
  room for depends on what else is being done. -/
  nesting : Nat
  deriving DecidableEq, Inhabited

def Limits.standard : Limits := ⟨4300, 980⟩

/-- What is beyond a limit. -/
inductive Overrun where
  | digits (limit : Nat)
  | nesting
  deriving DecidableEq, Inhabited

namespace Json

mutual

/-- The first thing in a value that is beyond the limits; `room` is how many more values may stand
one inside the other. -/
def overrun (digits room : Nat) : Json → Option Overrun
  | .int n => if n.natAbs < Nat.pow 10 digits then none else some (.digits digits)
  | .arr items =>
    match room with
    | 0 => some .nesting
    | room + 1 => overrunItems digits room items
  | .obj members =>
    match room with
    | 0 => some .nesting
    | room + 1 => overrunMembers digits room members
  | _ => none

def overrunItems (digits room : Nat) : List Json → Option Overrun
  | [] => none
  | v :: vs => (overrun digits room v).or (overrunItems digits room vs)

def overrunMembers (digits room : Nat) : List (String × Json) → Option Overrun
  | [] => none
  | (_, v) :: ms => (overrun digits room v).or (overrunMembers digits room ms)

end

end Json

end QuantumRisk

import QuantumRisk.Number.Binary64

/-!
# JSON values

Objects keep the order in which their members were first written; a repeated key replaces the value
but not the place.
-/

namespace QuantumRisk

open Number (Binary64)

/-- A JSON value. Whole numbers are exact and unbounded; numbers written with a point or an exponent
are in double precision. -/
inductive Json where
  | null
  | bool (b : Bool)
  | int (n : Int)
  | float (x : Binary64)
  | str (s : String)
  | arr (items : List Json)
  | obj (members : List (String × Json))
  deriving Inhabited

namespace Json

mutual

/-- Equality as values: same kinds, same members in the same order. -/
def same : Json → Json → Bool
  | .null, .null => true
  | .bool a, .bool b => a == b
  | .int a, .int b => a == b
  | .float a, .float b => a == b
  | .str a, .str b => a == b
  | .arr as, .arr bs => sameItems as bs
  | .obj as, .obj bs => sameMembers as bs
  | _, _ => false

def sameItems : List Json → List Json → Bool
  | [], [] => true
  | a :: as, b :: bs => same a b && sameItems as bs
  | _, _ => false

def sameMembers : List (String × Json) → List (String × Json) → Bool
  | [], [] => true
  | (k, a) :: as, (l, b) :: bs => k == l && same a b && sameMembers as bs
  | _, _ => false

end

/-- Put a member: a key that is there keeps its place. -/
def put (key : String) (value : Json) : List (String × Json) → List (String × Json)
  | [] => [(key, value)]
  | (k, v) :: rest => if k == key then (k, value) :: rest else (k, v) :: put key value rest

/-- The value of a member. -/
def lookup (key : String) (members : List (String × Json)) : Option Json :=
  (members.find? (·.1 == key)).map (·.2)

/-- The value of a member of an object. -/
def get? (key : String) : Json → Option Json
  | .obj members => lookup key members
  | _ => none

theorem lookup_put_self (key : String) (value : Json) (members : List (String × Json)) :
    lookup key (put key value members) = some value := by
  induction members with
  | nil => simp [put, lookup]
  | cons m rest ih =>
    obtain ⟨k, v⟩ := m
    by_cases h : k = key
    · simp [put, lookup, h]
    · simpa [put, lookup, h] using ih

end Json

end QuantumRisk

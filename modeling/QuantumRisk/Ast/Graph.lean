import QuantumRisk.Json.Basic

/-!
# Syntax graphs

The raw result of parsing is a graph of records. A record is a list of named fields, in order; a
field holds a plain value, a list, or a reference to a record by number. Two references to one
number are the same record, so that shared parts and cycles can be expressed.
-/

namespace QuantumRisk.Ast

open Number (Binary64)

/-- The content of a field. -/
inductive Datum where
  | null
  | bool (b : Bool)
  | int (n : Int)
  | float (x : Binary64)
  | str (s : String)
  | list (items : List Datum)
  | record (id : Nat)
  deriving Inhabited

namespace Datum

/-! ## Equality -/

mutual

/-- Are two data the same? -/
def same : Datum → Datum → Bool
  | .null, .null => true
  | .bool a, .bool b => a == b
  | .int m, .int n => m == n
  | .float x, .float y => x == y
  | .str s, .str t => s == t
  | .list ds, .list es => sameItems ds es
  | .record i, .record j => i == j
  | _, _ => false

def sameItems : List Datum → List Datum → Bool
  | [], [] => true
  | d :: ds, e :: es => same d e && sameItems ds es
  | _, _ => false

end

mutual

theorem same_iff (d e : Datum) : d.same e = true ↔ d = e := by
  cases d with
  | list ds =>
    cases e with
    | list es => simp [same, sameItems_iff ds es]
    | _ => simp [same]
  | _ => cases e <;> simp [same]

theorem sameItems_iff (ds es : List Datum) : sameItems ds es = true ↔ ds = es := by
  cases ds with
  | nil => cases es <;> simp [sameItems]
  | cons d ds =>
    cases es with
    | nil => simp [sameItems]
    | cons e es => simp [sameItems, same_iff d e, sameItems_iff ds es]

end

instance : DecidableEq Datum := fun d e ↦ decidable_of_iff _ (same_iff d e)

end Datum

/-- The fields of a record in order. -/
abbrev Fields := List (String × Datum)

structure Graph where
  records : Array Fields
  root : Nat
  deriving DecidableEq, Inhabited

namespace Datum

/-- Is this a record or a list, that is, can it lead to records? -/
def isBranch : Datum → Bool
  | .list _ => true
  | .record _ => true
  | _ => false

mutual

/-- The number of entries that a pending datum can put on the stack of a walk. -/
def weight : Datum → Nat
  | .list items => 1 + weights items
  | _ => 1

def weights : List Datum → Nat
  | [] => 0
  | d :: ds => weight d + weights ds

end

theorem weights_append (as bs : List Datum) : weights (as ++ bs) = weights as + weights bs := by
  induction as with
  | nil => simp [weights]
  | cons a as ih => simp [weights, ih, Nat.add_assoc]

end Datum

namespace Fields

/-- The content of a field. -/
def get? (fs : Fields) (key : String) : Option Datum :=
  (List.find? (fun f ↦ f.1 == key) fs).map (·.2)

/-- The content of a field, null if there is none. -/
def get (fs : Fields) (key : String) : Datum := (get? fs key).getD .null

end Fields

namespace Graph

/-- The fields of a record; none if there is no such record. -/
def fields (g : Graph) (id : Nat) : Fields := g.records.getD id []

mutual

/-- The plain value of a datum, with every record written out. A record inside itself is left out:
`path` holds the records around, and `fuel` bounds their number. -/
def unfold (g : Graph) (fuel : Nat) (path : List Nat) : Datum → Json
  | .null => .null
  | .bool b => .bool b
  | .int n => .int n
  | .float x => .float x
  | .str s => .str s
  | .list items => .arr (unfoldItems g fuel path items)
  | .record id =>
    match fuel with
    | 0 => .null
    | fuel + 1 =>
      if path.contains id then .null
      else .obj (unfoldFields g fuel (id :: path) (g.fields id))
termination_by d => (fuel, sizeOf d)

def unfoldItems (g : Graph) (fuel : Nat) (path : List Nat) : List Datum → List Json
  | [] => []
  | d :: ds => unfold g fuel path d :: unfoldItems g fuel path ds
termination_by ds => (fuel, sizeOf ds)

def unfoldFields (g : Graph) (fuel : Nat) (path : List Nat) : Fields → List (String × Json)
  | [] => []
  | (k, d) :: fs => (k, unfold g fuel path d) :: unfoldFields g fuel path fs
termination_by fs => (fuel, sizeOf fs)

end

/-- The plain value of a datum. -/
def value (g : Graph) (d : Datum) : Json := g.unfold g.records.size [] d

end Graph

end QuantumRisk.Ast

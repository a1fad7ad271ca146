import QuantumRisk.Finding
import QuantumRisk.Text.Case
import QuantumRisk.Text.Template

/-!
# Rules

A rule looks at nodes of one category; where its predicate holds it makes a finding. New patterns
are new rules, not changes to old ones.

The key-exposure rule goes by names: a field of raw bytes with a name like a key's. A byte field
called `keystone` is found as well, and a key kept as a number is not.
-/

namespace QuantumRisk

open Ast (Category DataFault Node)
open Text (TemplateFault)

/-- Why matching stopped. -/
inductive MatchFault where
  | data (fault : DataFault)
  | template (fault : TemplateFault)
  deriving Inhabited

structure Rule where
  id : String
  category : Category
  predicate : Node → Except DataFault Bool
  kind : FindingKind
  /-- A template for the name of the node. -/
  message : String

namespace Rule

/-- Does the rule apply to a node? Nodes of another category are not looked at. -/
def appliesTo (r : Rule) (n : Node) : Except DataFault Bool :=
  if n.category = r.category then r.predicate n else .ok false

/-- The finding that the rule makes of a node. -/
def finding (r : Rule) (n : Node) : Except TemplateFault Finding := do
  let message ← Text.fillTemplate r.message n.name
  return { rule := r.id, kind := r.kind, message, name := n.name, location := n.location }

end Rule

/-! ## Equality of plain values -/

namespace Json

/-- Are two plain values equal? Numbers of all kinds are compared by value. -/
def equals (a b : Json) : Bool :=
  let numeric : Json → Option Int := fun
    | .bool b => some (if b then 1 else 0)
    | .int n => some n
    | .float x => x.toInt?
    | _ => none
  match numeric a, numeric b with
  | some m, some n => m == n
  | some _, none => false
  | none, some _ => false
  | none, none =>
    match a, b with
    | .float .nan, _ => false
    | a, b => a.same b

end Json

/-! ## Predicates -/

/-- A call of the bare name `ecrecover`; a member of that name does not count. -/
def isEcrecoverCall : Node → Bool
  | .call callee calleeType _ =>
    calleeType.equals (.str "Identifier") && callee.equals (.str "ecrecover")
  | .declaration .. => false

/-- Parts of names that mark a key. -/
def keyMarkers : List String := ["pub", "key"]

/-- Does `part` occur in a text? -/
def occursIn (part : List Char) : List Char → Bool
  | [] => part.isEmpty
  | c :: cs => part.isPrefixOf (c :: cs) || occursIn part cs

/-- Does a name look like a key's? -/
def isKeyName (name : String) : Bool :=
  let cs := (Text.lower name).toList
  keyMarkers.any fun m ↦ occursIn m.toList cs

/-- A declaration of one of the types with a name like a key's. -/
def isKeyExposure (byteTypes : List Json) : Node → Except DataFault Bool
  | .call .. => .ok false
  | .declaration name typeName _ _ => do
    typeName.hashable
    if !byteTypes.any (·.equals typeName) then return false
    match name with
    | .str s => return isKeyName s
    | v => .error (.lacks v.kindName "lower")

/-- The members of a collection of byte types: the items of a list, or the characters of a text. -/
def byteTypesOf (collection : Json) : Except DataFault (List Json) := do
  let items ← match collection with
    | .arr items => .ok items
    | .str s => .ok (s.toList.map fun c ↦ .str c.toString)
    | .obj members => .ok (members.map fun (k, _) ↦ .str k)
    | v => .error (.notIterable v.kindName)
  items.forM (·.hashable)
  return items

/-! ## The standard table -/

def defaultByteTypes : List Json := [.str "bytes32", .str "bytes"]

def ecrecoverMessage : String := "⚠ Uses ecrecover — vulnerable to quantum attacks"

def keyExposureMessage : String :=
  "⚠ Exposes raw public key bytes '\x7bname\x7d' — harvestable for quantum key recovery"

def ecrecoverRule : Rule :=
  { id := "PQ-001", category := .call, predicate := fun n ↦ .ok (isEcrecoverCall n),
    kind := .ecrecoverUsage, message := ecrecoverMessage }

def keyExposureRule (byteTypes : List Json) : Rule :=
  { id := "PQ-002", category := .declaration, predicate := isKeyExposure byteTypes,
    kind := .keyExposure, message := keyExposureMessage }

/-- The standard rules for a set of byte types. -/
def defaultRules (byteTypes : List Json) : List Rule := [ecrecoverRule, keyExposureRule byteTypes]

end QuantumRisk

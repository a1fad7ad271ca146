import QuantumRisk.Ast.Fault
import QuantumRisk.Ast.TypeName
import QuantumRisk.Ast.Walk

/-!
# Calls and declarations

Of all records in a syntax graph, two families matter to the rules: calls, and declarations of
variables and parameters. `classify` reads one record as a member of a family; `nodes` does so along
the walk.
-/

namespace QuantumRisk.Ast

/-- A place in the source: lines count from `1`, columns from `0`. -/
structure Location where
  line : Int
  column : Int
  deriving DecidableEq, Inhabited, Repr

def Location.text (l : Location) : String := toString l.line ++ ":" ++ toString l.column

/-- Where a declared name lives. -/
inductive Scope where
  | stateVariable | localVariable | parameter
  deriving DecidableEq, Repr

def Scope.name : Scope → String
  | .stateVariable => "state"
  | .localVariable => "local"
  | .parameter => "parameter"

/-- The two families of nodes. -/
inductive Category where
  | call | declaration
  deriving DecidableEq, Repr

def Category.name : Category → String
  | .call => "call"
  | .declaration => "declaration"

/-- A call or a declaration. Names and types are texts in every graph that comes from source code;
other values are kept as they are. -/
inductive Node where
  | call (callee : Json) (calleeType : Json) (location : Option Location)
  | declaration (name : Json) (typeName : Json) (scope : Scope) (location : Option Location)
  deriving Inhabited

namespace Node

def category : Node → Category
  | .call .. => .call
  | .declaration .. => .declaration

/-- The name that was called or declared. -/
def name : Node → Json
  | .call callee _ _ => callee
  | .declaration name _ _ _ => name

def location : Node → Option Location
  | .call _ _ l => l
  | .declaration _ _ _ l => l

end Node

namespace Graph

/-- Is a datum something: neither null, false, zero, nor empty? -/
def isSome (g : Graph) : Datum → Bool
  | .null => false
  | .bool b => b
  | .int n => n != 0
  | .float x => !x.isZero
  | .str s => s != ""
  | .list items => !items.isEmpty
  | .record id => !(g.fields id).isEmpty

/-- The place that a record gives for itself. -/
def location (g : Graph) (fs : Fields) : Except DataFault (Option Location) :=
  match Fields.get fs "loc" with
  | .record loc =>
    let start := Fields.get (g.fields loc) "start"
    let read (place : Fields) : Except DataFault (Option Location) :=
      match Fields.get place "line" with
      | .null => .ok none
      | line => do
        let line ← (g.value line).toInteger
        let column ← ((g.value (Fields.get place "column")).orElse (.int 0)).toInteger
        return some ⟨line, column⟩
    match start with
    | .record id => read (g.fields id)
    | d => if g.isSome d then .error (.lacks (g.value d).kindName "get") else read []
  | _ => .ok none

/-- The scope that a type of record declares its name in. -/
def declarationScope : String → Option Scope
  | "VariableDeclaration" => some .localVariable
  | "Parameter" => some .parameter
  | "EventParameter" => some .parameter
  | _ => none

/-- The value of a field, the empty text in place of nothing. -/
def nameOf (g : Graph) (fs : Fields) : Json := (g.value (Fields.get fs "name")).orElse (.str "")

/-- A call, from the fields of its record. -/
def readCall (g : Graph) (fs : Fields) : Except DataFault Node := do
  let callee := match Fields.get fs "expression" with
    | .record id => g.fields id
    | _ => []
  let calleeType := match Fields.get? callee "type" with
    | some d => g.value d
    | none => .str ""
  return .call (g.nameOf callee) calleeType (← g.location fs)

/-- A declaration, from the fields of its record. -/
def readDeclaration (g : Graph) (scope : Scope) (fs : Fields) : Except DataFault Node := do
  let scope := if g.isSome (Fields.get fs "isStateVar") then .stateVariable else scope
  let typeName := typeText (g.value (Fields.get fs "typeName"))
  return .declaration (g.nameOf fs) typeName scope (← g.location fs)

/-- The call or declaration that a record describes, if it is one. -/
def classify (g : Graph) (id : Nat) : Except DataFault (Option Node) :=
  let fs := g.fields id
  match Fields.get fs "type" with
  | .str "FunctionCall" => some <$> g.readCall fs
  | .str t =>
    match declarationScope t with
    | some scope => some <$> g.readDeclaration scope fs
    | none => .ok none
  | .list _ => .error (.unhashable "list")
  | .record _ => .error (.unhashable "dict")
  | _ => .ok none

/-- The calls and declarations in the order of the walk, or the first fault. -/
def nodes (g : Graph) : Except DataFault (List Node) :=
  g.visits.foldr (fun id rest ↦ do
    match ← g.classify id with
    | some node => return node :: (← rest)
    | none => rest) (.ok [])

end Graph

end QuantumRisk.Ast

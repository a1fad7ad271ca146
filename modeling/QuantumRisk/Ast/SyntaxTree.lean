import QuantumRisk.Ast.Node
import QuantumRisk.Diagnostic

/-!
# Syntax trees

A syntax graph with the name of its source and the errors that were recovered from.
-/

namespace QuantumRisk.Ast

structure SyntaxTree where
  graph : Graph
  sourceName : String := ""
  diagnostics : List Diagnostic := []

namespace SyntaxTree

/-- Were there no syntax errors? -/
def isClean (t : SyntaxTree) : Bool := t.diagnostics.isEmpty

/-- The records at the top level that have a type: pragmas, contracts and so on. -/
def topLevel (t : SyntaxTree) : Except DataFault (List Nat) :=
  let children := Fields.get (t.graph.fields t.graph.root) "children"
  let records (items : List Datum) : List Nat := items.filterMap fun
    | .record id => if t.graph.isSome (Fields.get (t.graph.fields id) "type") then some id else none
    | _ => none
  match children with
  | .list items => .ok (records items)
  | .record _ => .ok []
  | .str _ => .ok []
  | d => if t.graph.isSome d then .error (.notIterable (t.graph.value d).kindName) else .ok []

/-- The types of the records at the top level. -/
def topLevelTypes (t : SyntaxTree) : Except DataFault (List Json) := do
  let ids ← t.topLevel
  return ids.map fun id ↦ t.graph.value (Fields.get (t.graph.fields id) "type")

/-- The calls and declarations in the order of the walk. -/
def nodes (t : SyntaxTree) : Except DataFault (List Node) := t.graph.nodes

/-- The nodes of one category. -/
def nodesOf (t : SyntaxTree) (c : Category) : Except DataFault (List Node) := do
  return (← t.nodes).filter (·.category == c)

end SyntaxTree

end QuantumRisk.Ast

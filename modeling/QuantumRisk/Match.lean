import QuantumRisk.Ast.SyntaxTree
import QuantumRisk.Rule

/-!
# Matching

A matcher walks a tree once. At each node it tries the rules of the node's category, in the order of
the table. Every kind that occurs in the table is counted, found or not.
-/

namespace QuantumRisk

open Ast (Category DataFault Graph Node SyntaxTree)

/-- Rules grouped by category, each group in the order of the table. -/
structure Matcher where
  rules : List Rule
  calls : List Rule
  declarations : List Rule

namespace Matcher

def ofRules (rules : List Rule) : Matcher where
  rules := rules
  calls := rules.filter (·.category = .call)
  declarations := rules.filter (·.category = .declaration)

/-- The rules of a category. -/
def rulesFor (m : Matcher) : Category → List Rule
  | .call => m.calls
  | .declaration => m.declarations

/-- Try one rule at one node. -/
def tryRule (n : Node) (result : MatchResult) (r : Rule) : Except MatchFault MatchResult :=
  match r.appliesTo n with
  | .error e => .error (.data e)
  | .ok false => .ok result
  | .ok true =>
    match r.finding n with
    | .error e => .error (.template e)
    | .ok f => .ok (result.add f)

/-- Try the rules of its category at one record of the walk. -/
def visit (m : Matcher) (g : Graph) (result : MatchResult) (id : Nat) :
    Except MatchFault MatchResult :=
  match g.classify id with
  | .error e => .error (.data e)
  | .ok none => .ok result
  | .ok (some n) => (m.rulesFor n.category).foldlM (tryRule n) result

/-- The result before the walk: every kind of the table at zero. -/
def blank (m : Matcher) : MatchResult :=
  { counts := m.rules.foldl (fun cs r ↦ cs.enter r.kind) [] }

/-- Match a tree. -/
def run (m : Matcher) (t : SyntaxTree) : Except MatchFault MatchResult :=
  t.graph.visits.foldlM (m.visit t.graph) m.blank

end Matcher

end QuantumRisk

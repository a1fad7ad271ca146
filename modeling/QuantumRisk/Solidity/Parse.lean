import QuantumRisk.Ast.SyntaxTree
import QuantumRisk.Failure
import QuantumRisk.Solidity.Ast
import QuantumRisk.SourceUnit

/-!
# Tolerant parsing

Syntax errors do not stop a parse: they are collected, and whatever could be recovered becomes a
syntax tree. A parse fails only if there is nothing to show for it: if no graph can be built from
the recovered tree, or if the graph has no top-level parts while there were errors.

What makes a graph of the recovered tree is a builder, which is asked for places or not. A graph
with places is tried first. If the builder fails, as the standard one does where the place of some
record is unknown, the graph is built without any, so places never decide whether a parse succeeds.
-/

namespace QuantumRisk.Solidity

open QuantumRisk.Ast (Graph SyntaxTree)

/-- One try at building the graph: whether places were asked for, and what came of it. -/
structure Attempt where
  withPlaces : Bool
  outcome : Except BuildFault Graph

/-- The fault of asking a missing end for its place. -/
def noPlace : BuildFault := .missing "line"

/-- The graph without places. -/
def graphOf (t : Grammar.Tree) : Except BuildFault Graph :=
  match build t with
  | (.ok (.record root), records) => .ok ⟨records.fields, root⟩
  | (.ok _, _) => .error .noParts
  | (.error e, _) => .error e

/-- The graph with places. -/
def placedGraphOf (t : Grammar.Tree) : Except BuildFault Graph :=
  match build t with
  | (.ok (.record root), records) =>
    match records.withPlaces with
    | some fields => .ok ⟨fields, root⟩
    | none => .error noPlace
  | (.ok _, _) => .error .noParts
  | (.error e, records) => .error (if records.lacksPlace then noPlace else e)

/-- What makes a graph of a parse tree, with places or without. -/
abbrev Builder := Bool → Grammar.Tree → Except BuildFault Graph

def standardBuilder : Builder
  | true, t => placedGraphOf t
  | false, t => graphOf t

/-- The tries at building a graph, in order, up to the first that succeeds. -/
def attempts (withPlaces : Bool) (t : Grammar.Tree) (builder : Builder := standardBuilder) :
    List Attempt :=
  let plain : Attempt := ⟨false, builder false t⟩
  if withPlaces then
    match builder true t with
    | .ok g => [⟨true, .ok g⟩]
    | .error e => [⟨true, .error e⟩, plain]
  else [plain]

/-- The outcome of the last try. -/
def lastOutcome (tries : List Attempt) : Except BuildFault Graph :=
  match tries.getLast? with
  | some a => a.outcome
  | none => .error .noParts

/-- What a failed parse says: the first syntax error, else why the graph could not be built. -/
def failureText (diagnostics : List Diagnostic) (fault : BuildFault) : String :=
  "Parsing failed: " ++ match diagnostics with
    | d :: _ => d.text
    | [] => fault.kind ++ ": " ++ fault.message

def parseFailure (unit : SourceUnit) (diagnostics : List Diagnostic) (message : String) : Failure :=
  .parse message unit.basename (diagnostics.map (·.toJson))

/-- Turn the tries and the syntax errors into a tree or a failure. -/
def conclude (unit : SourceUnit) (diagnostics : List Diagnostic)
    (outcome : Except BuildFault Graph) : Except Failure SyntaxTree :=
  match outcome with
  | .error fault => .error (parseFailure unit diagnostics (failureText diagnostics fault))
  | .ok graph =>
    let tree : SyntaxTree := ⟨graph, unit.basename, diagnostics⟩
    match diagnostics, tree.topLevel with
    | d :: _, .ok [] =>
      .error (parseFailure unit diagnostics ("Parsing failed: " ++ d.text))
    | _, _ => .ok tree

/-- A parse with the tries that led to it. -/
structure ParseRun where
  tries : List Attempt
  result : Except Failure SyntaxTree

/-- Parse a source unit. -/
def parseUnit (withPlaces : Bool) (unit : SourceUnit) (builder : Builder := standardBuilder) :
    ParseRun :=
  let parse := parseText unit.text
  match parse.tree with
  | none =>
    let message := match parse.diagnostics with
      | d :: _ => d.text
      | [] => ""
    ⟨[], .error (parseFailure unit parse.diagnostics ("Parsing failed: " ++ message))⟩
  | some tree =>
    let tries := attempts withPlaces tree builder
    ⟨tries, conclude unit parse.diagnostics (lastOutcome tries)⟩

end QuantumRisk.Solidity

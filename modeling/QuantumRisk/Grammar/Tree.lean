import QuantumRisk.Grammar.KindSet

/-!
# Parse trees

A parse tree keeps every token that was read, including those that recovery skipped or made up, so
that the text of a node is the text of its leaves. A node remembers its first token and the token
before the place where its rule ended; the second is missing only if the rule ended before anything
was read.
-/

namespace QuantumRisk.Grammar

/-- A word of the input with its place. -/
structure Token where
  kind : Kind
  text : String
  line : Nat
  column : Nat
  /-- Place among all tokens, comments included. -/
  place : Nat := 0
  deriving DecidableEq, Inhabited, Repr

inductive Tree where
  | leaf (token : Token)
  | node (rule : Nat) (start : Token) (stop : Option Token) (children : List Tree)
  deriving Inhabited

namespace Tree

mutual

/-- The texts of the leaves, one after the other. -/
def text : Tree → String
  | .leaf t => t.text
  | .node _ _ _ children => texts children

def texts : List Tree → String
  | [] => ""
  | t :: ts => t.text ++ texts ts

end

def children : Tree → List Tree
  | .leaf _ => []
  | .node _ _ _ cs => cs

/-- Is this a node of rule `r`? -/
def isNode (r : Nat) : Tree → Bool
  | .node q _ _ _ => q == r
  | .leaf _ => false

/-- Is this a token of kind `k`? -/
def isLeaf (k : Kind) : Tree → Bool
  | .leaf t => t.kind == k
  | .node .. => false

end Tree

end QuantumRisk.Grammar

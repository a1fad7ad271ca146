import Std.Data.TreeMap

/-!
# Sets of call stacks

Prediction follows many branches at once, each with its own stack of pending returns. A set of
stacks is stored as a tree that shares common tops: a node says whether the empty stack is a member
and, for each return state on top, what lies below it. Nodes are interned, so that equal sets have
equal numbers; node `0` is the set that holds the empty stack alone.

When nothing is known about the caller, the empty stack stands for *every* continuation, and a union
with it is it (`merge` with `wild`).
-/

namespace QuantumRisk.Grammar

/-- A set of stacks, by the number of its node. -/
abbrev StackId := Nat

/-- Does the set hold the empty stack, and what lies below each possible top? Tops are in increasing
order. -/
structure StackNode where
  hasEmpty : Bool
  tops : List (Nat × StackId)
  deriving Inhabited

/-- The node as a list of numbers, by which it is found again. -/
def StackNode.code (n : StackNode) : List Nat :=
  n.hasEmpty.toNat :: n.tops.flatMap fun (r, s) ↦ [r, s]

/-- The interned nodes, and the unions already computed. -/
structure Stacks where
  nodes : Array StackNode
  /-- The number of each node, by its code. -/
  numbers : Std.TreeMap (List Nat) StackId
  /-- The union of each pair of sets. -/
  unions : Std.TreeMap (List Nat) StackId

namespace Stacks

/-- The set that holds only the empty stack. -/
def bottom : StackId := 0

def initial : Stacks :=
  let node : StackNode := ⟨true, []⟩
  { nodes := #[node], numbers := (∅ : Std.TreeMap ..).insert node.code 0, unions := ∅ }

instance : Inhabited Stacks := ⟨initial⟩

def node (st : Stacks) (s : StackId) : StackNode := st.nodes.getD s ⟨true, []⟩

def intern (n : StackNode) : StateM Stacks StackId := do
  let st ← get
  match st.numbers[n.code]? with
  | some s => return s
  | none =>
    let s := st.nodes.size
    set { st with nodes := st.nodes.push n, numbers := st.numbers.insert n.code s }
    return s

/-- Put return state `r` on top of every stack of `s`. -/
def push (r : Nat) (s : StackId) : StateM Stacks StackId := intern ⟨false, [(r, s)]⟩

/-- Merge two lists of tops with no more than `fuel` tops together; equal tops are joined by
`join`. -/
def mergeTops (join : StackId → StackId → StateM Stacks StackId) :
    Nat → List (Nat × StackId) → List (Nat × StackId) → StateM Stacks (List (Nat × StackId))
  | _, [], bs => return bs
  | _, as, [] => return as
  | 0, as, _ => return as
  | fuel + 1, (r, a) :: as, (q, b) :: bs => do
    if r == q then
      let c ← join a b
      let rest ← mergeTops join fuel as bs
      return (r, c) :: rest
    else if r < q then
      let rest ← mergeTops join fuel as ((q, b) :: bs)
      return (r, a) :: rest
    else
      let rest ← mergeTops join fuel ((r, a) :: as) bs
      return (q, b) :: rest

/-- The union of two sets of stacks no deeper than `fuel`. -/
def merge (wild : Bool) : Nat → StackId → StackId → StateM Stacks StackId
  | 0, a, _ => return a
  | fuel + 1, a, b => do
    if a == b then return a
    if wild && (a == bottom || b == bottom) then return bottom
    let st ← get
    match st.unions[[a, b]]? with
    | some c => return c
    | none =>
      let na := st.node a
      let nb := st.node b
      let tops ← mergeTops (merge wild fuel) (na.tops.length + nb.tops.length) na.tops nb.tops
      let c ← intern ⟨na.hasEmpty || nb.hasEmpty, tops⟩
      modify fun st ↦ { st with unions := st.unions.insert [a, b] c }
      return c

/-- Unions computed so far are only valid for one reading of the empty stack. -/
def forgetUnions (st : Stacks) : Stacks := { st with unions := ∅ }

end Stacks

end QuantumRisk.Grammar

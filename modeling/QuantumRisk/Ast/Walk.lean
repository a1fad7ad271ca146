import QuantumRisk.Ast.Graph

/-!
# Walking a syntax graph

The walk visits every record that can be reached from the root, depth first and each record before
what it refers to, in the order of fields and list items. It keeps a stack of pending data. A record
is marked when it is taken from the stack, not when it is put there, so a record may be pending
several times and is visited only once.

Each step either marks a record or makes the pending data smaller, so the walk ends on every graph.
-/

namespace QuantumRisk.Ast

namespace Graph

/-- Fields that never hold parts of the program. -/
def nonBranchKeys : List String := ["type", "loc", "range"]

/-- What a record refers to, in order. -/
def branches (g : Graph) (id : Nat) : List Datum :=
  (g.fields id).filterMap fun (k, d) ↦
    if !nonBranchKeys.contains k && d.isBranch then some d else none

end Graph

theorem count_false_set_lt (seen : Array Bool) (i : Nat) (h : i < seen.size)
    (hi : seen[i] = false) : (seen.set i true).count false < seen.count false := by
  have hpos : 0 < seen.count false := Array.count_pos_iff.2 (hi ▸ Array.getElem_mem h)
  rw [Array.count_set, hi]
  exact Nat.sub_lt hpos Nat.one_pos

/-- The records visited from pending data, given the ones already seen. -/
def Graph.visit (g : Graph) (seen : Array Bool) (pending : List Datum) : List Nat :=
  match pending with
  | [] => []
  | .list items :: rest => g.visit seen (items ++ rest)
  | .record i :: rest =>
    if h : i < seen.size then
      if hi : seen[i] = true then g.visit seen rest
      else i :: g.visit (seen.set i true) (g.branches i ++ rest)
    else g.visit seen rest
  | .null :: rest => g.visit seen rest
  | .bool _ :: rest => g.visit seen rest
  | .int _ :: rest => g.visit seen rest
  | .float _ :: rest => g.visit seen rest
  | .str _ :: rest => g.visit seen rest
termination_by (seen.count false, Datum.weights pending)
decreasing_by
  · apply Prod.Lex.right; simp [Datum.weights_append, Datum.weights, Datum.weight]
  · apply Prod.Lex.right; simp [Datum.weights, Datum.weight]
  · apply Prod.Lex.left; exact count_false_set_lt seen i h (by simpa using hi)
  all_goals apply Prod.Lex.right; simp [Datum.weights, Datum.weight]

/-- The records reached from the root, in the order of the walk. -/
def Graph.visits (g : Graph) : List Nat :=
  g.visit (Array.replicate g.records.size false) [.record g.root]

end QuantumRisk.Ast

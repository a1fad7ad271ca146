import QuantumRisk.Ast.Node
import QuantumRisk.Proofs.Ast.DepthFirst

/-!
# The loop behind the walk

The walk is a loop over an explicit stack whose top is the last item. Each turn takes the top off: a
list is replaced by its items, a record that was not seen is classified and replaced by what it
refers to, anything else is dropped. What is put on the stack is put there in reverse, so that the
first part comes off first.

The loop ends on every graph, and it classifies the records of the walk in their order or stops at
the first that cannot be classified.
-/

namespace QuantumRisk.Ast

/-- The state of the loop. -/
structure Loop where
  /-- The records classified so far, in order. -/
  seen : List Nat
  /-- What is pending; the top is the last item. -/
  stack : List Datum
  yielded : List Node

namespace Graph

variable {g : Graph} {i : Nat} {pending : List Datum} {l : Loop}

/-! ## The loop -/

/-- The state before the first turn. -/
def start (g : Graph) : Loop := ⟨[], [.record g.root], []⟩

/-- One turn; nothing if the stack is empty. -/
def turn (g : Graph) (l : Loop) : Except DataFault (Option Loop) :=
  match l.stack.getLast? with
  | none => .ok none
  | some (.list items) => .ok (some { l with stack := l.stack.dropLast ++ items.reverse })
  | some (.record i) =>
    if i < g.records.size ∧ i ∉ l.seen then do
      let node ← g.classify i
      return some
        { seen := l.seen ++ [i], stack := l.stack.dropLast ++ (g.branches i).reverse,
          yielded := l.yielded ++ node.toList }
    else .ok (some { l with stack := l.stack.dropLast })
  | some _ => .ok (some { l with stack := l.stack.dropLast })

/-- At most so many turns. -/
def turns (g : Graph) : Nat → Loop → Except DataFault Loop
  | 0, l => .ok l
  | n + 1, l => do
    match ← g.turn l with
    | none => return l
    | some l => g.turns n l

/-- The nodes among records in order, or the first fault. -/
def nodesAlong (g : Graph) (ids : List Nat) : Except DataFault (List Node) := do
  match ids with
  | [] => return []
  | id :: ids =>
    let node ← g.classify id
    return node.toList ++ (← g.nodesAlong ids)

theorem nodes_eq_nodesAlong (g : Graph) : g.nodes = g.nodesAlong g.visits := by
  rw [nodes]
  induction g.visits with
  | nil => rfl
  | cons id ids ih =>
    rw [List.foldr_cons, ih, nodesAlong]
    cases g.classify id with
    | error fault => rfl
    | ok node =>
      cases node with
      | none =>
        cases g.nodesAlong ids with
        | error fault => rfl
        | ok nodes => rfl
      | some node => rfl

/-! ## The loop ends -/

/-- What the loop comes to from a state: the records of the walk are classified in order. -/
def EndsWith (g : Graph) (l : Loop) (ids : List Nat) : Prop :=
  ∃ n, ∀ m, n ≤ m → g.turns m l =
    (g.nodesAlong ids).map fun nodes ↦ ⟨l.seen ++ ids, [], l.yielded ++ nodes⟩

/-- A turn that only changes the stack does not change what the loop comes to. -/
theorem EndsWith.of_turn (stack : List Datum) {ids : List Nat}
    (hturn : g.turn l = .ok (some { l with stack })) (h : EndsWith g { l with stack } ids) :
    EndsWith g l ids := by
  obtain ⟨n, hn⟩ := h
  refine ⟨n + 1, fun m hm ↦ ?_⟩
  obtain ⟨m, rfl⟩ := Nat.exists_eq_add_of_le' (Nat.le_of_add_left_le hm)
  rw [turns, hturn]
  exact hn m (by omega)

/-- A turn that classifies a record. -/
theorem EndsWith.of_classify (stack : List Datum) {ids : List Nat}
    (hturn : g.turn l = (g.classify i).map fun node ↦
      some ⟨l.seen ++ [i], stack, l.yielded ++ node.toList⟩)
    (h : ∀ node, EndsWith g ⟨l.seen ++ [i], stack, l.yielded ++ node⟩ ids) :
    EndsWith g l (i :: ids) := by
  cases hclass : g.classify i with
  | error fault =>
    rw [hclass] at hturn
    refine ⟨1, fun m hm ↦ ?_⟩
    obtain ⟨m, rfl⟩ := Nat.exists_eq_add_of_le' hm
    rw [turns, hturn, nodesAlong, hclass]
    rfl
  | ok node =>
    -- one turn more than the loop needs from the next state
    rw [hclass] at hturn
    obtain ⟨n, hn⟩ := h node.toList
    refine ⟨n + 1, fun m hm ↦ ?_⟩
    obtain ⟨m, rfl⟩ := Nat.exists_eq_add_of_le' (Nat.le_of_add_left_le hm)
    rw [turns, hturn, nodesAlong, hclass]
    refine (hn m (by omega)).trans ?_
    cases g.nodesAlong ids with
    | error fault => rfl
    | ok nodes => simp [Except.map, bind, Except.bind, pure, Except.pure]

/-- **The loop ends**, having classified the records of the walk. -/
theorem endsWith_visit {seen : Array Bool} (hmarks : Marks g seen l.seen)
    (hstack : l.stack = pending.reverse) : EndsWith g l (g.visit seen pending) := by
  -- along the walk: every step of it is one turn on the stack that is its list turned round
  fun_induction visit g seen pending generalizing l with
  | case1 seen =>
    have hend : l = ⟨l.seen ++ [], [], l.yielded ++ []⟩ := by
      rw [List.append_nil, List.append_nil, ← show l.stack = [] from hstack]
    refine ⟨0, fun m _ ↦ ?_⟩
    cases m with
    | zero => exact congrArg Except.ok hend
    | succ m =>
      have hturn : g.turn l = .ok none := by rw [turn, hstack]; rfl
      rw [turns, hturn]
      exact congrArg Except.ok hend
  | case2 seen items rest ih =>
    refine .of_turn (rest.reverse ++ items.reverse) ?_ (ih hmarks (by simp))
    simp [turn, hstack]
  | case3 seen i rest hi hseen ih =>
    have hold : i ∈ l.seen := (hmarks.marked hi).mp hseen
    refine .of_turn rest.reverse ?_ (ih hmarks rfl)
    simp [turn, hstack, hold]
  | case4 seen i rest hi hseen ih =>
    have hnew : i ∉ l.seen := fun h ↦ hseen ((hmarks.marked hi).mpr h)
    have hrange : i < g.records.size := hmarks.size ▸ hi
    refine .of_classify (rest.reverse ++ (g.branches i).reverse) ?_ fun node ↦
      ih (hmarks.set hi) (by simp)
    simp [turn, hstack, hnew, hrange]
    rfl
  | case5 seen i rest hi ih =>
    have hrange : ¬ i < g.records.size := hmarks.size ▸ hi
    refine .of_turn rest.reverse ?_ (ih hmarks rfl)
    simp [turn, hstack, hrange]
  | case6 seen rest ih | case7 seen _ rest ih | case8 seen _ rest ih | case9 seen _ rest ih
  | case10 seen _ rest ih =>
    refine .of_turn rest.reverse ?_ (ih hmarks rfl)
    simp [turn, hstack]

/-- **The walk.** On every graph the loop ends. It classifies the records of the walk one after
another, or stops at the first fault. The walk has no record twice, it has exactly the records that
can be reached from the root, and it is the recursive depth-first traversal. -/
theorem loop_walks_depth_first (g : Graph) :
    (∃ n, ∀ m, n ≤ m →
      g.turns m g.start = g.nodes.map fun nodes ↦ ⟨g.visits, [], nodes⟩) ∧
    g.visits.Nodup ∧
    (∀ i, i ∈ g.visits ↔ i < g.records.size ∧ Relation.ReflTransGen g.Refers g.root i) ∧
    g.visits = g.depthFirst [] (.record g.root) ∧
    g.nodes = g.nodesAlong (g.depthFirst [] (.record g.root)) := by
  refine ⟨?_, (visit_nodup (marks_start g) _).1, fun i ↦ mem_visits_iff, visits_eq_depthFirst g, ?_⟩
  · have hstack : g.start.stack = [Datum.record g.root].reverse := rfl
    obtain ⟨n, hn⟩ := endsWith_visit (marks_start g) hstack
    rw [nodes_eq_nodesAlong]
    exact ⟨n, hn⟩
  · rw [← visits_eq_depthFirst, nodes_eq_nodesAlong]

end Graph

end QuantumRisk.Ast

import QuantumRisk.Proofs.Match.Findings

/-!
# A match sees the nodes of the walk

Of the graph a match uses nothing but the calls and declarations along the walk: records of other
kinds give no findings. So two trees with the same nodes have the same match, and whether a match
fails is a matter of the rules at these nodes.
-/

namespace QuantumRisk.Matcher

open Ast (Graph Node SyntaxTree)

variable {g : Graph} {t : SyntaxTree} {ns : List Node}

/-- The findings at a node. -/
def nodeFindings (m : Matcher) (n : Node) : Except MatchFault (List Finding) :=
  ((m.rulesFor n.category).mapM (findingOf n)).map List.flatten

theorem map_flatten_mapM_cons {ε α β : Type} (find : α → Except ε (List β)) (x : α) (xs : List α) :
    ((x :: xs).mapM find).map List.flatten
      = (find x).bind fun fs ↦ ((xs.mapM find).map List.flatten).map (fs ++ ·) := by
  rw [List.mapM_cons]
  cases find x with
  | error e => rfl
  | ok fs => cases xs.mapM find <;> rfl

theorem exists_of_bind_eq_ok {ε α β : Type} {x : Except ε α} {f : α → Except ε β} {b : β}
    (h : x.bind f = .ok b) : ∃ a, x = .ok a ∧ f a = .ok b := by
  cases x with
  | error e => cases h
  | ok a => exact ⟨a, rfl, h⟩

/-- The findings along the walk are those at its nodes. -/
theorem findings_visits (m : Matcher) (h : g.nodes = .ok ns) :
    (g.visits.mapM (m.findingsAt g)).map List.flatten
      = (ns.mapM m.nodeFindings).map List.flatten := by
  rw [Graph.nodes] at h
  generalize g.visits = ids at h
  induction ids generalizing ns with
  | nil =>
    cases h
    rfl
  | cons i ids ih =>
    rw [List.foldr_cons] at h
    obtain ⟨node, hclassify, h⟩ := exists_of_bind_eq_ok h
    rw [map_flatten_mapM_cons, findingsAt, hclassify]
    cases node with
    | none =>
      rw [ih h]
      cases ns.mapM m.nodeFindings <;> rfl
    | some n =>
      obtain ⟨ns', hrest, hns⟩ := exists_of_bind_eq_ok h
      cases hns
      rw [ih hrest, map_flatten_mapM_cons]
      rfl

/-- **A match along the nodes.** -/
theorem run_of_nodes (m : Matcher) (h : t.nodes = .ok ns) :
    m.run t = ((ns.mapM m.nodeFindings).map List.flatten).map m.blank.addAll := by
  rw [run_eq, ← findings_visits m h]
  cases t.graph.visits.mapM (m.findingsAt t.graph) <;> rfl

end QuantumRisk.Matcher

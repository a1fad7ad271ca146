import QuantumRisk.Match

/-!
# A match is the findings along the walk

A matcher goes through the walk with a result that it adds to. What it adds at a record does not
depend on the result so far. So a match is a list: the findings at each record (`findingsAt`), one
record after another, in the order of the walk (`run_eq`), and it fails with the first of them that
fails.
-/

namespace QuantumRisk

open Ast (Graph Node SyntaxTree)

/-! ## Folds that can fail -/

section Folds

variable {ε α β γ : Type}

/-- A fold whose steps add what they find is one search followed by one addition. -/
theorem foldlM_map_eq (find : β → Except ε γ) (add : α → γ → α) (xs : List β) (a : α) :
    xs.foldlM (fun a x ↦ (find x).map (add a)) a
      = (xs.mapM find).map fun cs ↦ cs.foldl add a := by
  induction xs generalizing a with
  | nil => rfl
  | cons x xs ih =>
    rw [List.foldlM_cons, List.mapM_cons]
    cases hx : find x with
    | error e => rfl
    | ok c =>
      have hrest := ih (add a c)
      simp only [Except.map, bind, Except.bind] at hrest ⊢
      rw [hrest]
      cases xs.mapM find <;> rfl

theorem mapM_eq_ok {find : β → Except ε γ} {found : β → γ} {xs : List β}
    (h : ∀ x ∈ xs, find x = .ok (found x)) : xs.mapM find = .ok (xs.map found) := by
  induction xs with
  | nil => rfl
  | cons x xs ih =>
    rw [List.mapM_cons, h x List.mem_cons_self, ih fun y hy ↦ h y (List.mem_cons_of_mem x hy)]
    rfl

end Folds

namespace MatchResult

/-- Several findings are added. -/
def addAll (r : MatchResult) (fs : List Finding) : MatchResult := fs.foldl add r

theorem addAll_addAll (r : MatchResult) (fs fs' : List Finding) :
    (r.addAll fs).addAll fs' = r.addAll (fs ++ fs') := by
  rw [addAll, addAll, addAll, List.foldl_append]

theorem foldl_addAll (r : MatchResult) (found : List (List Finding)) :
    found.foldl addAll r = r.addAll found.flatten := by
  induction found generalizing r with
  | nil => rfl
  | cons fs found ih => rw [List.foldl_cons, ih, addAll_addAll, List.flatten_cons]

theorem findings_addAll (r : MatchResult) (fs : List Finding) :
    (r.addAll fs).findings = r.findings ++ fs := by
  induction fs generalizing r with
  | nil => rw [List.append_nil]; rfl
  | cons f fs ih =>
    rw [addAll, List.foldl_cons, ← addAll, ih, add, List.append_assoc, List.singleton_append]

end MatchResult

namespace Matcher

/-- The finding that a rule makes at a node, if it applies there. -/
def findingOf (n : Node) (r : Rule) : Except MatchFault (List Finding) :=
  match r.appliesTo n with
  | .error e => .error (.data e)
  | .ok false => .ok []
  | .ok true =>
    match r.finding n with
    | .error e => .error (.template e)
    | .ok f => .ok [f]

/-- The findings at a record. -/
def findingsAt (m : Matcher) (g : Graph) (id : Nat) : Except MatchFault (List Finding) :=
  match g.classify id with
  | .error e => .error (.data e)
  | .ok none => .ok []
  | .ok (some n) => ((m.rulesFor n.category).mapM (findingOf n)).map List.flatten

theorem tryRule_eq (n : Node) (result : MatchResult) (r : Rule) :
    tryRule n result r = (findingOf n r).map result.addAll := by
  rw [tryRule, findingOf]
  cases r.appliesTo n with
  | error e => rfl
  | ok applies =>
    cases applies with
    | false => rfl
    | true => cases r.finding n <;> rfl

theorem visit_eq (m : Matcher) (g : Graph) (result : MatchResult) (id : Nat) :
    m.visit g result id = (m.findingsAt g id).map result.addAll := by
  rw [visit, findingsAt]
  cases g.classify id with
  | error e => rfl
  | ok node =>
    cases node with
    | none => rfl
    | some n =>
      have htry : tryRule n = fun result r ↦ (findingOf n r).map result.addAll := by
        funext result r
        exact tryRule_eq n result r
      simp only [htry, foldlM_map_eq]
      cases (m.rulesFor n.category).mapM (findingOf n) with
      | error e => rfl
      | ok found => exact congrArg Except.ok (MatchResult.foldl_addAll result found)

/-- **A match** collects the findings of all records of the walk. -/
theorem run_eq (m : Matcher) (t : SyntaxTree) :
    m.run t = (t.graph.visits.mapM (m.findingsAt t.graph)).map
      fun found ↦ m.blank.addAll found.flatten := by
  have hvisit : m.visit t.graph = fun result id ↦ (m.findingsAt t.graph id).map result.addAll := by
    funext result id
    exact visit_eq m t.graph result id
  rw [run, hvisit, foldlM_map_eq]
  simp only [MatchResult.foldl_addAll]

/-- A match succeeds if no record makes it fail. -/
theorem run_eq_ok {m : Matcher} {t : SyntaxTree} {found : Nat → List Finding}
    (h : ∀ i ∈ t.graph.visits, m.findingsAt t.graph i = .ok (found i)) :
    m.run t = .ok (m.blank.addAll (t.graph.visits.flatMap found)) := by
  rw [run_eq, mapM_eq_ok h, List.flatMap]
  rfl

end Matcher

end QuantumRisk

import QuantumRisk.Proofs.Ast.Placed
import QuantumRisk.Proofs.Match.Nodes
import QuantumRisk.Report

/-!
# Matching without places

A rule is shown whole nodes, so it could look at their places. *Blinded*, it is shown nodes without
them. In two trees that are the same but for places, a blinded table finds the same
(`run_blinded`), but for the places of the findings; neither counts nor messages nor a report have a
place in them.

A *blind* rule is one that blinding does not change: it does not look at places. The standard rules
are blind.
-/

namespace QuantumRisk

open Ast (Graph Node SyntaxTree)

/-- The rule, shown nodes without their places. -/
def Rule.blinded (r : Rule) : Rule := { r with predicate := fun n ↦ r.predicate n.unplaced }

/-- The rule does not look at places. -/
def Rule.Blind (r : Rule) : Prop := ∀ n : Node, r.predicate n.unplaced = r.predicate n

/-- The finding without its place. -/
def Finding.unplaced (f : Finding) : Finding := { f with location := none }

/-- The findings without their places, and the counts. -/
def MatchResult.unplaced (r : MatchResult) : MatchResult :=
  { r with findings := r.findings.map Finding.unplaced }

theorem Ast.Node.category_unplaced (n : Node) : n.unplaced.category = n.category := by
  cases n <;> rfl

theorem Ast.Node.name_unplaced (n : Node) : n.unplaced.name = n.name := by
  cases n <;> rfl

theorem Ast.Node.location_unplaced (n : Node) : n.unplaced.location = none := by
  cases n <;> rfl

/-- The standard rules go by names and types. -/
theorem Rule.blind_defaultRules (byteTypes : List Json) :
    ∀ r ∈ defaultRules byteTypes, r.Blind := by
  simp only [defaultRules, List.forall_mem_cons]
  refine ⟨fun n ↦ ?_, fun n ↦ ?_, by simp⟩
  · cases n <;> rfl
  · cases n <;> rfl

theorem Rule.map_blinded {rules : List Rule} (h : ∀ r ∈ rules, r.Blind) :
    rules.map Rule.blinded = rules := by
  refine (List.map_congr_left fun r hr ↦ ?_).trans rules.map_id
  rw [blinded, funext (h r hr)]
  rfl

namespace MatchResult

theorem messages_unplaced (r : MatchResult) : r.unplaced.messages = r.messages := by
  rw [messages, unplaced, List.map_map, messages]
  rfl

theorem unplaced_addAll (r : MatchResult) (fs : List Finding) :
    (r.addAll fs).unplaced = r.unplaced.addAll (fs.map Finding.unplaced) := by
  induction fs generalizing r with
  | nil => rfl
  | cons f fs ih =>
    have hadd : (r.add f).unplaced = r.unplaced.add f.unplaced := by
      simp [unplaced, add, Finding.unplaced]
    rw [List.map_cons, addAll, addAll, List.foldl_cons, List.foldl_cons, ← addAll, ← addAll, ih,
      hadd]

theorem build_unplaced (contract : String) (r : MatchResult) (w : RiskWeights) :
    Report.build contract r.unplaced w = Report.build contract r w := by
  simp only [Report.build, messages_unplaced]
  rfl

/-- Results that are the same but for places have the same counts and messages and make the same
reports. -/
theorem same_of_unplaced {x x' : Except MatchFault MatchResult}
    (h : x'.map unplaced = x.map unplaced) :
    (∃ e, x = .error e ∧ x' = .error e) ∨
      ∃ found found', x = .ok found ∧ x' = .ok found' ∧ found'.counts = found.counts ∧
        found'.messages = found.messages ∧
        ∀ contract w, Report.build contract found' w = Report.build contract found w := by
  cases x with
  | error e =>
    cases x' with
    | error e' =>
      cases h
      exact .inl ⟨e, rfl, rfl⟩
    | ok found' => cases h
  | ok found =>
    cases x' with
    | error e => cases h
    | ok found' =>
      have hsame : found'.unplaced = found.unplaced := Except.ok.inj h
      have hcounts : found'.unplaced.counts = found.unplaced.counts := congrArg _ hsame
      refine .inr ⟨found, found', rfl, rfl, hcounts, ?_, fun contract w ↦ ?_⟩
      · rw [← messages_unplaced, hsame, messages_unplaced]
      · rw [← build_unplaced, hsame, build_unplaced]

end MatchResult

namespace Matcher

variable {rules : List Rule} {t t' : SyntaxTree}

theorem mapM_eq_map {ε α β γ : Type} {f : α → Except ε β} {f' : α → Except ε γ} {φ : β → γ}
    {xs : List α} (h : ∀ x ∈ xs, f' x = (f x).map φ) :
    xs.mapM f' = (xs.mapM f).map (List.map φ) := by
  induction xs with
  | nil => rfl
  | cons x xs ih =>
    obtain ⟨hx, hxs⟩ := List.forall_mem_cons.mp h
    rw [List.mapM_cons, List.mapM_cons, hx, ih hxs]
    cases f x with
    | error e => rfl
    | ok b => cases xs.mapM f <;> rfl

theorem mapM_congr_left {ε α β : Type} {f f' : α → Except ε β} {xs : List α}
    (h : ∀ x ∈ xs, f x = f' x) : xs.mapM f = xs.mapM f' := by
  induction xs with
  | nil => rfl
  | cons x xs ih =>
    obtain ⟨hx, hxs⟩ := List.forall_mem_cons.mp h
    rw [List.mapM_cons, List.mapM_cons, hx, ih hxs]

theorem findingOf_unplaced (r : Rule) (n : Node) :
    findingOf n.unplaced r = (findingOf n r.blinded).map (List.map Finding.unplaced) := by
  have happlies : r.appliesTo n.unplaced = r.blinded.appliesTo n := by
    rw [Rule.appliesTo, n.category_unplaced]
    rfl
  -- The message is made of the name, so only the place of the finding changes.
  have hfinding : r.finding n.unplaced = (r.blinded.finding n).map Finding.unplaced := by
    rw [Rule.finding, Rule.finding, n.name_unplaced, n.location_unplaced]
    change _ = Except.map _ (Text.fillTemplate r.message n.name >>= _)
    cases Text.fillTemplate r.message n.name <;> rfl
  rw [findingOf, findingOf, happlies, hfinding]
  cases r.blinded.appliesTo n with
  | error e => rfl
  | ok applies =>
    cases applies with
    | false => rfl
    | true => cases r.blinded.finding n <;> rfl

theorem rulesFor_blinded (c : Ast.Category) :
    (ofRules (rules.map Rule.blinded)).rulesFor c
      = ((ofRules rules).rulesFor c).map Rule.blinded := by
  cases c <;> exact List.filter_map

theorem nodeFindings_unplaced (n : Node) :
    (ofRules rules).nodeFindings n.unplaced
      = ((ofRules (rules.map Rule.blinded)).nodeFindings n).map (List.map Finding.unplaced) := by
  have hrules : ((ofRules rules).rulesFor n.category).mapM (findingOf n.unplaced)
      = (((ofRules rules).rulesFor n.category).mapM (findingOf n ∘ Rule.blinded)).map
        (List.map (List.map Finding.unplaced)) := mapM_eq_map fun r _ ↦ findingOf_unplaced r n
  rw [nodeFindings, nodeFindings, n.category_unplaced, rulesFor_blinded, List.mapM_map, hrules]
  cases ((ofRules rules).rulesFor n.category).mapM (findingOf n ∘ Rule.blinded) with
  | error e => rfl
  | ok found => exact congrArg Except.ok List.map_flatten.symm

/-- What a blinded table finds at a record, and whether it fails there, is a matter of the node
without its place. -/
theorem findingsAt_blinded (g : Graph) (i : Nat) :
    ((ofRules (rules.map Rule.blinded)).findingsAt g i).map (List.map Finding.unplaced)
      = match (g.classify i).map (Option.map Node.unplaced) with
        | .error e => .error (.data e)
        | .ok none => .ok []
        | .ok (some n) => (ofRules rules).nodeFindings n := by
  rw [findingsAt]
  cases g.classify i with
  | error e => rfl
  | ok n =>
    cases n with
    | none => rfl
    | some n => exact (nodeFindings_unplaced n).symm

theorem map_unplaced_run (m : Matcher) (t : SyntaxTree) :
    (m.run t).map MatchResult.unplaced
      = (t.graph.visits.mapM fun i ↦
          (m.findingsAt t.graph i).map (List.map Finding.unplaced)).map
        fun found ↦ m.blank.unplaced.addAll found.flatten := by
  rw [run_eq, mapM_eq_map fun _ _ ↦ rfl]
  cases t.graph.visits.mapM (m.findingsAt t.graph) with
  | error e => rfl
  | ok found =>
    refine congrArg Except.ok ?_
    rw [MatchResult.unplaced_addAll, List.map_flatten]

variable (rules) in
/-- **Trees that are the same but for places**: what a blinded table finds in them is the same but
for places, and it fails in both or in none. -/
theorem run_blinded (h : t.graph.SameButPlaces t'.graph) :
    ((ofRules (rules.map Rule.blinded)).run t').map MatchResult.unplaced
      = ((ofRules (rules.map Rule.blinded)).run t).map MatchResult.unplaced := by
  rw [map_unplaced_run, map_unplaced_run, h.visits]
  refine congrArg _ (mapM_congr_left fun i hi ↦ ?_)
  rw [findingsAt_blinded, findingsAt_blinded, h.classify i hi]

end Matcher

end QuantumRisk

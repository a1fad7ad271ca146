import Mathlib
import QuantumRisk.Proofs.Match.Counting
import QuantumRisk.Proofs.Match.Counts
import QuantumRisk.Proofs.Match.Nodes

/-!
# More rules find more

New patterns are new rules, put anywhere into the table. The rules at a node are tried one after
another and none depends on what others have found, so the findings of a table that is put together
from two others are put together in the same way from the findings of these two. Counts and sums of
weights add up; the score is cut off at the ceiling in each part and once more in the whole, which
makes no difference.
-/

namespace QuantumRisk

open Ast (Category Graph Node SyntaxTree)

/-! ## Lists put together -/

/-- A list that is put together from two others, each of which keeps its order. -/
inductive Interleaved {α : Type} : List α → List α → List α → Prop
  | nil : Interleaved [] [] []
  | left (x : α) {xs ys zs : List α} (h : Interleaved xs ys zs) : Interleaved (x :: xs) ys (x :: zs)
  | right (y : α) {xs ys zs : List α} (h : Interleaved xs ys zs) :
      Interleaved xs (y :: ys) (y :: zs)

namespace Interleaved

variable {α β : Type} {xs ys zs xs' ys' zs' : List α}

theorem refl_left (xs : List α) : Interleaved xs [] xs := by
  induction xs with
  | nil => exact .nil
  | cons x xs ih => exact .left x ih

theorem symm (h : Interleaved xs ys zs) : Interleaved ys xs zs := by
  induction h with
  | nil => exact .nil
  | left x _ ih => exact .right x ih
  | right y _ ih => exact .left y ih

theorem append (h : Interleaved xs ys zs) (h' : Interleaved xs' ys' zs') :
    Interleaved (xs ++ xs') (ys ++ ys') (zs ++ zs') := by
  induction h with
  | nil => exact h'
  | left x _ ih => exact .left x ih
  | right y _ ih => exact .right y ih

theorem filter (h : Interleaved xs ys zs) (p : α → Bool) :
    Interleaved (xs.filter p) (ys.filter p) (zs.filter p) := by
  induction h with
  | nil => exact .nil
  | left x _ ih =>
    rw [List.filter_cons, List.filter_cons]
    split
    · exact .left x ih
    · exact ih
  | right y _ ih =>
    rw [List.filter_cons, List.filter_cons]
    split
    · exact .right y ih
    · exact ih

theorem flatMap (h : Interleaved xs ys zs) (f : α → List β) :
    Interleaved (xs.flatMap f) (ys.flatMap f) (zs.flatMap f) := by
  induction h with
  | nil => exact .nil
  | left x _ ih =>
    rw [List.flatMap_cons, List.flatMap_cons]
    exact (refl_left (f x)).append ih
  | right y _ ih =>
    rw [List.flatMap_cons, List.flatMap_cons]
    exact (refl_left (f y)).symm.append ih

/-- What is put together item by item is put together as a whole. -/
theorem flatMap_of_forall {f g k : β → List α} (bs : List β)
    (h : ∀ b, Interleaved (f b) (g b) (k b)) :
    Interleaved (bs.flatMap f) (bs.flatMap g) (bs.flatMap k) := by
  induction bs with
  | nil => exact .nil
  | cons b bs ih => exact (h b).append ih

theorem sublist_left (h : Interleaved xs ys zs) : xs.Sublist zs := by
  induction h with
  | nil => exact .slnil
  | left x _ ih => exact ih.cons_cons x
  | right y _ ih => exact ih.cons y

theorem perm (h : Interleaved xs ys zs) : zs.Perm (xs ++ ys) := by
  induction h with
  | nil => exact .refl []
  | left x _ ih => exact ih.cons x
  | right y _ ih => exact (ih.cons y).trans List.perm_middle.symm

theorem mem_of_left (h : Interleaved xs ys zs) {x : α} (hx : x ∈ xs) : x ∈ zs :=
  h.sublist_left.subset hx

end Interleaved

/-! ## Rules at a node -/

/-- A rule can be tried at a node: its predicate gives an answer, and where it holds the message can
be filled in. -/
def Rule.Handles (r : Rule) (n : Node) : Prop :=
  r.appliesTo n = .ok false ∨ r.appliesTo n = .ok true ∧ ∃ f, r.finding n = .ok f

namespace Matcher

variable {rules rules₁ rules₂ : List Rule} {t : SyntaxTree} {ns : List Node}

/-- What a rule finds at a node where it can be tried. -/
def foundBy (n : Node) (r : Rule) : List Finding := (findingOf n r).toOption.getD []

theorem findingOf_of_handles {r : Rule} {n : Node} (h : r.Handles n) :
    findingOf n r = .ok (foundBy n r) := by
  obtain ⟨fs, hfs⟩ : ∃ fs, findingOf n r = .ok fs := by
    rw [findingOf]
    rcases h with happlies | ⟨happlies, f, hf⟩
    · exact ⟨[], by rw [happlies]⟩
    · exact ⟨[f], by rw [happlies, hf]⟩
  rw [foundBy, hfs]
  rfl

theorem rulesFor_ofRules (rules : List Rule) (c : Category) :
    (ofRules rules).rulesFor c = rules.filter (·.category = c) := by
  cases c <;> rfl

/-- What a table finds along nodes where its rules can be tried. -/
def foundAlong (rules : List Rule) (ns : List Node) : List Finding :=
  ns.flatMap fun n ↦ (rules.filter (·.category = n.category)).flatMap (foundBy n)

theorem run_of_handles (hnodes : t.nodes = .ok ns) (h : ∀ n ∈ ns, ∀ r ∈ rules, r.Handles n) :
    (ofRules rules).run t = .ok ((ofRules rules).blank.addAll (foundAlong rules ns)) := by
  have hnode (n : Node) (hn : n ∈ ns) : (ofRules rules).nodeFindings n
      = .ok ((rules.filter (·.category = n.category)).flatMap (foundBy n)) := by
    rw [nodeFindings, rulesFor_ofRules,
      mapM_eq_ok fun r hr ↦ findingOf_of_handles (h n hn r (List.mem_filter.mp hr).1)]
    rfl
  rw [run_of_nodes _ hnodes, mapM_eq_ok hnode]
  rfl

theorem interleaved_foundAlong (h : Interleaved rules₁ rules₂ rules) (ns : List Node) :
    Interleaved (foundAlong rules₁ ns) (foundAlong rules₂ ns) (foundAlong rules ns) :=
  .flatMap_of_forall ns fun n ↦ (h.filter _).flatMap (foundBy n)

theorem findings_blank_addAll (m : Matcher) (fs : List Finding) :
    (m.blank.addAll fs).findings = fs := MatchResult.findings_addAll m.blank fs

/-! ## Main statement -/

section Counts

variable {r r₁ r₂ : MatchResult}

theorem found_of_interleaved (h : Interleaved r₁.findings r₂.findings r.findings)
    (k : FindingKind) : r.found k = r₁.found k + r₂.found k := by
  rw [MatchResult.found, h.perm.countP_eq, List.countP_append]
  rfl

theorem rawScore_nonneg (h : r.Counted) (w : RiskWeights) : 0 ≤ rawScore r.counts w := by
  rw [h.rawScore]
  positivity

/-- Cutting off the parts does not change what is left of the whole. -/
theorem score_of_interleaved (h : Interleaved r₁.findings r₂.findings r.findings) (hr : r.Counted)
    (hr₁ : r₁.Counted) (hr₂ : r₂.Counted) (w : RiskWeights) :
    score r.counts w = min (w.ceiling : Int) (score r₁.counts w + score r₂.counts w) := by
  have hsum : rawScore r.counts w = rawScore r₁.counts w + rawScore r₂.counts w := by
    rw [hr.rawScore, hr₁.rawScore, hr₂.rawScore, found_of_interleaved h, found_of_interleaved h]
    push_cast
    ring
  have h₁ := rawScore_nonneg hr₁ w
  have h₂ := rawScore_nonneg hr₂ w
  rw [score, score, score, hsum]
  omega

end Counts

/-- **Extending the table keeps what was found.** If a table is put together from two others and all
its rules can be tried at the nodes of a tree, the tree can be matched with each of the three. The
findings are put together from those of the two parts, the counts add up, and the score is the sum
of the scores, cut off at the ceiling; so no finding is lost, and no count and no score sinks. -/
theorem match_of_interleaved (h : Interleaved rules₁ rules₂ rules) (t : SyntaxTree)
    (hnodes : t.nodes = .ok ns) (hhandles : ∀ n ∈ ns, ∀ rule ∈ rules, rule.Handles n) :
    ∃ r r₁ r₂ : MatchResult, (ofRules rules).run t = .ok r ∧ (ofRules rules₁).run t = .ok r₁ ∧
      (ofRules rules₂).run t = .ok r₂ ∧
      r₁.findings.Sublist r.findings ∧ r₂.findings.Sublist r.findings ∧
      r.findings.Perm (r₁.findings ++ r₂.findings) ∧
      (∀ k, r.count k = r₁.count k + r₂.count k) ∧
      (∀ w, score r.counts w = min (w.ceiling : Int) (score r₁.counts w + score r₂.counts w)) ∧
      (∀ k, r₁.count k ≤ r.count k ∧ r₂.count k ≤ r.count k) ∧
      ∀ w, score r₁.counts w ≤ score r.counts w ∧ score r₂.counts w ≤ score r.counts w := by
  have hrun := run_of_handles hnodes hhandles
  have hrun₁ := run_of_handles hnodes fun n hn rule hrule ↦ hhandles n hn rule (h.mem_of_left hrule)
  have hrun₂ := run_of_handles hnodes fun n hn rule hrule ↦
    hhandles n hn rule (h.symm.mem_of_left hrule)
  have hcounted := counted_run hrun
  have hcounted₁ := counted_run hrun₁
  have hcounted₂ := counted_run hrun₂
  have hfound : Interleaved ((ofRules rules₁).blank.addAll (foundAlong rules₁ ns)).findings
      ((ofRules rules₂).blank.addAll (foundAlong rules₂ ns)).findings
      ((ofRules rules).blank.addAll (foundAlong rules ns)).findings := by
    rw [findings_blank_addAll, findings_blank_addAll, findings_blank_addAll]
    exact interleaved_foundAlong h ns
  have hscore := score_of_interleaved hfound hcounted hcounted₁ hcounted₂
  have hcount := found_of_interleaved hfound
  refine ⟨_, _, _, hrun, hrun₁, hrun₂, hfound.sublist_left, hfound.symm.sublist_left, hfound.perm,
    fun k ↦ ?_, hscore, fun k ↦ ?_, fun w ↦ ?_⟩
  · rw [hcounted.count, hcounted₁.count, hcounted₂.count, hcount]
    exact Int.natCast_add _ _
  · rw [hcounted.count, hcounted₁.count, hcounted₂.count, hcount]
    omega
  · have h₁ := rawScore_nonneg hcounted₁ w
    have h₂ := rawScore_nonneg hcounted₂ w
    have hparts := hscore w
    simp only [score] at hparts ⊢
    omega

/-! ## One call, two rules -/

/-- Every call is found. -/
def everyCall : Rule where
  id := "X-001"
  category := .call
  predicate := fun _ ↦ .ok true
  kind := .keyExposure
  message := "call of \x7bname\x7d"

/-- A tree that is one call of `ecrecover`. -/
def oneCall : SyntaxTree where
  graph := ⟨#[[("type", .str "FunctionCall"), ("expression", .record 1)],
    [("type", .str "Identifier"), ("name", .str "ecrecover")]], 0⟩

theorem nodes_oneCall :
    oneCall.nodes = .ok [.call (.str "ecrecover") (.str "Identifier") none] := by
  have hvisits : oneCall.graph.visits = [0, 1] := by cbv
  have hcall : oneCall.graph.classify 0
      = .ok (some (.call (.str "ecrecover") (.str "Identifier") none)) := by
    have htype : Ast.Fields.get (oneCall.graph.fields 0) "type" = .str "FunctionCall" := rfl
    have hcallee : Ast.Fields.get (oneCall.graph.fields 0) "expression" = .record 1 := rfl
    have hname : Ast.Fields.get (oneCall.graph.fields 1) "name" = .str "ecrecover" := rfl
    have hidentifier : Ast.Fields.get? (oneCall.graph.fields 1) "type" = some (.str "Identifier") :=
      rfl
    simp only [Graph.classify, htype, Graph.readCall, hcallee, Graph.nameOf_of_str hname,
      hidentifier, Graph.value_str]
    rfl
  have hother : oneCall.graph.classify 1 = .ok none := rfl
  rw [SyntaxTree.nodes, Graph.nodes, hvisits]
  simp only [List.foldr_cons, List.foldr_nil, hcall, hother]
  rfl

theorem handles_oneCall :
    ∀ n ∈ [Node.call (.str "ecrecover") (.str "Identifier") none],
      ∀ rule ∈ [everyCall, ecrecoverRule], rule.Handles n := by
  simp only [List.forall_mem_cons, List.not_mem_nil, false_implies, implies_true, and_true]
  exact ⟨.inr ⟨rfl, _, by cbv⟩, .inr ⟨by cbv, _, by cbv⟩⟩

/-- What the two rules find at the call. -/
def callFinding : Finding := ⟨"X-001", .keyExposure, "call of ecrecover", .str "ecrecover", none⟩

def ecrecoverFinding : Finding :=
  ⟨"PQ-001", .ecrecoverUsage, ecrecoverMessage, .str "ecrecover", none⟩

theorem run_oneCall (rules : List Rule) (found : List Finding)
    (hhandles : ∀ rule ∈ rules, rule ∈ [everyCall, ecrecoverRule])
    (hfound : foundAlong rules [.call (.str "ecrecover") (.str "Identifier") none] = found) :
    (ofRules rules).run oneCall = .ok ((ofRules rules).blank.addAll found) :=
  hfound ▸ run_of_handles nodes_oneCall fun n hn rule hrule ↦
    handles_oneCall n hn rule (hhandles rule hrule)

/-- With a rule in front of the standard one the call is found twice, and the scores add up. -/
theorem match_of_interleaved_oneCall : ∃ r r₁ r₂ : MatchResult,
    (ofRules [everyCall, ecrecoverRule]).run oneCall = .ok r ∧
    (ofRules [ecrecoverRule]).run oneCall = .ok r₁ ∧ (ofRules [everyCall]).run oneCall = .ok r₂ ∧
    r.findings = [callFinding, ecrecoverFinding] ∧ r₁.findings = [ecrecoverFinding] ∧
    r₂.findings = [callFinding] ∧ r.findings.Perm (r₁.findings ++ r₂.findings) ∧
    r.count .keyExposure = 1 ∧ r.count .ecrecoverUsage = 1 ∧
    score r₁.counts .standard = 50 ∧ score r₂.counts .standard = 10 ∧
    score r.counts .standard = 60 := by
  have hrules : Interleaved [ecrecoverRule] [everyCall] [everyCall, ecrecoverRule] :=
    .right everyCall (.left ecrecoverRule .nil)
  obtain ⟨r, r₁, r₂, hr, hr₁, hr₂, -, -, hperm, hcount, hscore, -⟩ :=
    match_of_interleaved hrules oneCall nodes_oneCall handles_oneCall
  have hfound := run_oneCall [everyCall, ecrecoverRule] [callFinding, ecrecoverFinding] (by simp)
    (by cbv)
  have hfound₁ := run_oneCall [ecrecoverRule] [ecrecoverFinding] (by simp) (by cbv)
  have hfound₂ := run_oneCall [everyCall] [callFinding] (by simp) (by cbv)
  obtain rfl := Except.ok.inj (hr.symm.trans hfound)
  obtain rfl := Except.ok.inj (hr₁.symm.trans hfound₁)
  obtain rfl := Except.ok.inj (hr₂.symm.trans hfound₂)
  have hsum := hscore .standard
  exact ⟨_, _, _, hr, hr₁, hr₂, rfl, rfl, rfl, hperm, hcount _, hcount _, rfl, rfl, hsum⟩

end Matcher

end QuantumRisk

import Mathlib
import QuantumRisk.Proofs.Match.Counts
import QuantumRisk.Proofs.Match.OrderIndependence
import QuantumRisk.Proofs.Report.Build

/-!
# What a report says

The parts of a report come from three places: the counts from a table, the warnings from the
findings, the score from the table and the weights. They agree because every match counts what it
finds; and the report is never rejected, since counts are no negative numbers and the ceiling keeps
the score within the bounds of a report.
-/

namespace QuantumRisk

variable {found : MatchResult} {w : RiskWeights}

/-- The score of given numbers of findings. -/
def RiskWeights.scoreOf (w : RiskWeights) (calls keys : Nat) : Nat :=
  min w.ceiling (w.weight .ecrecoverUsage * calls + w.weight .keyExposure * keys)

namespace RiskWeights

theorem scoreOf_le_ceiling (w : RiskWeights) (calls keys : Nat) :
    w.scoreOf calls keys ≤ w.ceiling := Nat.min_le_left _ _

theorem scoreOf_mono (w : RiskWeights) {calls calls' keys keys' : Nat} (hcalls : calls ≤ calls')
    (hkeys : keys ≤ keys') : w.scoreOf calls keys ≤ w.scoreOf calls' keys' := by
  rw [scoreOf, scoreOf]
  gcongr

theorem weight_of_absent {k : FindingKind} (h : ∀ n, (k, n) ∉ w.weights) : w.weight k = 0 := by
  rw [weight]
  cases hlookup : List.lookup k w.weights with
  | none => rfl
  | some n =>
    obtain ⟨before, after, hweights, -⟩ := List.lookup_eq_some_iff.mp hlookup
    exact absurd (hweights ▸ by simp) (h n)

end RiskWeights

theorem MatchResult.Counted.score (h : found.Counted) (w : RiskWeights) :
    score found.counts w
      = (w.scoreOf (found.found .ecrecoverUsage) (found.found .keyExposure) : Nat) := by
  rw [QuantumRisk.score, h.rawScore, RiskWeights.scoreOf]
  push_cast
  rfl

namespace Report

/-- The report on a match that counts what it finds. -/
theorem build_of_counted (contract : String) (h : found.Counted) (w : RiskWeights) :
    ∃ hle, build contract found w = .ok ⟨contract, found.found .ecrecoverUsage,
      found.found .keyExposure,
      w.scoreOf (found.found .ecrecoverUsage) (found.found .keyExposure), hle, found.messages⟩ :=
  ⟨(w.scoreOf_le_ceiling ..).trans w.ceiling_le,
    build_eq contract (h.count _) (h.count _) (h.score w) _⟩

/-- **The report on a match.** For all rules, trees, names and weights, if the tree can be matched,
there is a report. Its counts are the numbers of findings of each kind, its warnings the messages of
the findings in their order, one for each that is counted. The score is the weighted sum of the
counts, where a kind without a weight weighs nothing, cut off at the ceiling; and with the same
weights more findings of a kind never give a lower score. -/
theorem build_of_match (rules : List Rule) (t : Ast.SyntaxTree) (contract : String)
    (w : RiskWeights) (hrun : (Matcher.ofRules rules).run t = .ok found) :
    ∃ r : Report, build contract found w = .ok r ∧ r.contract = contract ∧
      r.ecrecoverCount = found.findings.countP (·.kind = .ecrecoverUsage) ∧
      r.keyExposureCount = found.findings.countP (·.kind = .keyExposure) ∧
      r.warnings = found.findings.map (·.message) ∧
      r.warnings.length = r.ecrecoverCount + r.keyExposureCount ∧
      r.riskScore = min w.ceiling
        (w.weight .ecrecoverUsage * r.ecrecoverCount + w.weight .keyExposure * r.keyExposureCount) ∧
      (∀ k, (∀ n, (k, n) ∉ w.weights) → w.weight k = 0) ∧
      r.riskScore ≤ w.ceiling ∧ w.ceiling ≤ 100 ∧
      ∀ (rules' : List Rule) (t' : Ast.SyntaxTree) (contract' : String) (found' : MatchResult)
        (r' : Report), (Matcher.ofRules rules').run t' = .ok found' →
        build contract' found' w = .ok r' → r.ecrecoverCount ≤ r'.ecrecoverCount →
        r.keyExposureCount ≤ r'.keyExposureCount → r.riskScore ≤ r'.riskScore := by
  obtain ⟨hle, hbuild⟩ := build_of_counted contract (Matcher.counted_run hrun) w
  refine ⟨_, hbuild, rfl, rfl, rfl, rfl, ?_, rfl, fun _ ↦ RiskWeights.weight_of_absent,
    w.scoreOf_le_ceiling .., w.ceiling_le, ?_⟩
  · rw [MatchResult.messages, List.length_map, MatchResult.length_findings]
  · intro rules' t' contract' found' r' hrun' hbuild' hcalls hkeys
    obtain ⟨hle', hbuilt⟩ := build_of_counted contract' (Matcher.counted_run hrun') w
    obtain rfl := Except.ok.inj (hbuilt.symm.trans hbuild')
    exact w.scoreOf_mono hcalls hkeys

/-- The knot has one finding of each kind; without a weight for keys, only the call is scored. -/
theorem build_of_match_knot : ∃ (found : MatchResult) (r : Report),
    (Matcher.ofRules (defaultRules [.str "bytes32"])).run ⟨Matcher.tightKnot, "", []⟩ = .ok found ∧
    build "Knot.sol" found ⟨[(.ecrecoverUsage, 70)], 90, by decide⟩ = .ok r ∧
    r.warnings.length = 2 ∧ r.riskScore = 70 := by
  obtain ⟨found, hrun, -, hcounts⟩ := Matcher.run_standardMatcher ["bytes32"]
    (t := ⟨Matcher.tightKnot, "", []⟩) fun i ↦ Matcher.legible_tightKnot
  rw [Matcher.callsEcrecover_tightKnot, Matcher.declaresKey_tightKnot, Set.ncard_singleton,
    Set.ncard_singleton] at hcounts
  have hcounted := Matcher.counted_run hrun
  obtain ⟨r, hbuild, -, hcalls, hkeys, -, hlength, hscore, -⟩ :=
    build_of_match _ _ "Knot.sol" ⟨[(.ecrecoverUsage, 70)], 90, by decide⟩ hrun
  have hone : found.count .ecrecoverUsage = 1 ∧ found.count .keyExposure = 1 := by
    rw [MatchResult.count, MatchResult.count, hcounts]
    exact ⟨rfl, rfl⟩
  rw [hcounted.count, hcounted.count] at hone
  have hcalls' : r.ecrecoverCount = 1 := hcalls.trans (by exact_mod_cast hone.1)
  have hkeys' : r.keyExposureCount = 1 := hkeys.trans (by exact_mod_cast hone.2)
  refine ⟨found, r, hrun, hbuild, ?_, ?_⟩
  · rw [hlength, hcalls', hkeys']
  · rw [hscore, hcalls', hkeys']
    rfl

end Report

end QuantumRisk

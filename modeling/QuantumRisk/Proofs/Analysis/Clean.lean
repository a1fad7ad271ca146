import Mathlib
import QuantumRisk.Proofs.Analysis.Outcomes
import QuantumRisk.Proofs.Solidity.Places

/-!
# Analyzing contracts without syntax errors

The analysis of a contract that is read without a syntax error succeeds if its graph can be built,
and it has no diagnostics. For the contract with one key it is known what the analysis finds, in any
workspace where the contract is loaded.
-/

namespace QuantumRisk.Analyzer

open Matcher (keyFinding)
open Solidity (ReadsCleanly attempts keyHolder lastOutcome)

variable {a : Analyzer} {settings : Settings} {path : Option String} {w : Workspace}
  {u : SourceUnit}

/-- The stages of an analysis, one after another. -/
theorem analyzeUnit_of_stages {tree : Ast.SyntaxTree} {found : MatchResult} {report : Report}
    (hparse : (Solidity.parseUnit a.withPlaces u).result = .ok tree)
    (hmatch : a.matcher.run tree = .ok found)
    (hreport : Report.build u.basename found a.weights = .ok report) :
    (a.analyzeUnit u).1 = .ok ⟨report, found.findings, tree.diagnostics⟩ := by
  simp only [analyzeUnit, hparse, hmatch, hreport]

/-- **A contract without syntax errors** is analyzed if its graph can be built. -/
theorem analyzeUnit_of_clean {types : List String} (hmatcher : a.matcher = standardMatcher types)
    {t : Grammar.Tree} {g : Ast.Graph} (h : ReadsCleanly u.text t)
    (hg : lastOutcome (attempts a.withPlaces t) = .ok g) :
    ∃ found, (a.analyzeUnit u).1 = .ok found ∧ found.diagnostics = [] := by
  have hparse := Solidity.parseUnit_of_clean h hg
  rcases analyzeUnit_cases hmatcher u with ⟨f, hfailed, -⟩ | ⟨found, hfound⟩
  · rw [hparse] at hfailed
    cases hfailed
  · refine ⟨found, hfound, ?_⟩
    simp only [analyzeUnit, hparse] at hfound
    split at hfound
    · cases hfound
    · split at hfound
      · cases hfound
      · cases hfound
        rfl

/-- The report on a contract `A.sol` with one key. -/
def keyReport : Report where
  contract := "A.sol"
  ecrecoverCount := 0
  keyExposureCount := 1
  riskScore := 10
  warnings := [(keyFinding "pubKey" none).message]

/-- What the analysis of the contract with one key gives: the key is found at its place, the third
character of the second line. -/
def keyAnalysis : Analysis := ⟨keyReport, [keyFinding "pubKey" (some ⟨2, 2⟩)], []⟩

theorem analyze_keyHolder (types : List String) (hmatcher : a.matcher = standardMatcher types)
    (htype : "bytes32" ∈ types) (hplaces : a.withPlaces = true)
    (hscore : score (tally 0 1) a.weights = 10) (hload : w.loadSource path = .ok u)
    (htext : u.text = keyHolder) (hname : u.basename = "A.sol") :
    (a.analyze path w).1 = .ok keyAnalysis := by
  obtain ⟨hparse, -, hnodes⟩ := Solidity.parse_keyHolder htext
  rw [← hplaces] at hparse
  have hmatch := Matcher.run_of_key types (t := ⟨_, u.basename, []⟩) htype
    Solidity.isKeyName_pubKey hnodes
  rw [← hmatcher] at hmatch
  have hreport : Report.build u.basename ⟨[keyFinding "pubKey" (some ⟨2, 2⟩)], tally 0 1⟩ a.weights
      = .ok keyReport := by
    rw [hname]
    exact Report.build_eq "A.sol" rfl rfl hscore (by decide)
  rw [analyze, hload]
  exact analyzeUnit_of_stages hparse hmatch hreport

/-- The contract is loaded from any file that holds it. -/
theorem loadSource_keyHolder {p : Path} (hlooks : w.LooksUp path p)
    (hstat : w.files.stat p = .ok (.file (Text.encode keyHolder))) :
    w.loadSource path = .ok ⟨p, keyHolder⟩ := by
  have hunified : keyHolder = Text.unified keyHolder := by cbv
  exact Workspace.loadSource_of_readable
    ⟨hlooks, _, keyHolder, hstat, Text.decode_encode _, hunified⟩

/-- Settings that leave rules and weights as they are describe an analyzer that finds the key. -/
theorem exists_keyAnalyzer (hbytes : settings.byteTypes = "bytes32,bytes")
    (hweights : settings.riskWeights = .ok .standard) :
    ∃ a, ofSettings settings = .ok a ∧ a.store = .ofSettings settings ∧
      ∀ (w : Workspace) (path : Option String) (p : Path),
        w.loadSource path = .ok ⟨p, keyHolder⟩ → p.name = "A.sol" →
          (a.analyze path w).1 = .ok keyAnalysis := by
  have htypes : settings.byteTypeSet = ["bytes32", "bytes"] := by
    rw [Settings.byteTypeSet, hbytes, String.splitToList_of_valid]
    cbv
  have hmatcher : Matcher.ofRules (defaultRules (settings.byteTypeSet.map .str))
      = standardMatcher ["bytes32", "bytes"] := by
    rw [htypes]
    rfl
  refine ⟨_, by rw [ofSettings, hweights], rfl, fun w path p hload hname ↦ ?_⟩
  exact analyze_keyHolder ["bytes32", "bytes"] hmatcher List.mem_cons_self rfl rfl hload rfl hname

end QuantumRisk.Analyzer

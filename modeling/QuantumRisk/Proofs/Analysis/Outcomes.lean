import QuantumRisk.Analysis
import QuantumRisk.Proofs.Report.Build
import QuantumRisk.Proofs.Solidity.Legible
import QuantumRisk.Proofs.Workspace.Load

/-!
# The ends of a run

A run ends in a report or in one of four failures, one for each thing that can go wrong: no contract
is named, it is not found, nothing can be recovered from it, the report cannot be saved. Matching
and scoring cannot fail, because what a parse gives is legible and counts make a valid report.

Three faults are passed on instead of being told as failures: a home that is not known and a name
that is too long, both in the path of the contract, and a null byte in the settings of the store.
-/

namespace QuantumRisk.Analyzer

open Workspace (Unnamed)

variable {a : Analyzer} {settings : Settings} {path : Option String} {w : Workspace}

theorem ofSettings_ok (h : ofSettings settings = .ok a) :
    a.matcher = standardMatcher settings.byteTypeSet ∧ a.store = .ofSettings settings := by
  rw [ofSettings] at h
  split at h
  · cases h
  · cases h
    exact ⟨rfl, rfl⟩

/-! ## Stages -/

/-- **Analyzing a text** fails only if it cannot be parsed. -/
theorem analyzeUnit_cases {types : List String} (h : a.matcher = standardMatcher types)
    (u : SourceUnit) :
    (∃ f, (Solidity.parseUnit a.withPlaces u).result = .error f ∧
        (a.analyzeUnit u).1 = .error (.failure f)) ∨
      ∃ found, (a.analyzeUnit u).1 = .ok found := by
  rw [analyzeUnit]
  rcases Solidity.parseUnit_cases a.withPlaces u with
    ⟨diagnostics, message, hparse⟩ | ⟨tree, hparse, hwellFormed⟩
  · exact .inl ⟨_, hparse, by simp only [hparse]⟩
  · obtain ⟨found, hrun, -, hcounts⟩ :=
      Matcher.run_standardMatcher types (t := tree) fun i _ ↦ hwellFormed.legible i
    have hnonneg : ∀ c ∈ found.counts, 0 ≤ c.2 := by
      rw [hcounts]
      simp [tally]
    obtain ⟨report, hreport⟩ := Report.exists_build u.basename hnonneg a.weights
    exact .inr ⟨⟨report, found.findings, tree.diagnostics⟩, by simp only [hparse, h, hrun, hreport]⟩

/-- After the analysis the save decides how a run ends. -/
theorem run_of_write {s : Store} {disk : Disk} {w' : Workspace} {found : Analysis}
    {result : Except Fault Path} {more : List Event}
    (hanalyze : (a.analyze path w).1 = .ok found) (hstore : a.store = s)
    (hwrite : s.write found.report w disk = (result, more, w')) :
    ∃ events, a.run path w disk = (result.map (found, ·), events, w') := by
  subst hstore
  rcases h : a.analyze path w with ⟨fault | found', events⟩
  · rw [h] at hanalyze
    cases hanalyze
  · rw [h] at hanalyze
    cases hanalyze
    rw [run, h]
    simp only [hwrite]
    cases result with
    | error fault => exact ⟨_, rfl⟩
    | ok p => exact ⟨_, rfl⟩

end QuantumRisk.Analyzer

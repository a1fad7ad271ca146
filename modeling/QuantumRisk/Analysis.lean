import QuantumRisk.Match
import QuantumRisk.Solidity.Parse
import QuantumRisk.Store.Basic

/-!
# Analysis

An analysis takes a contract through its stages: load, parse, match, score. A run also saves the
report. A run that fails before the report is complete changes nothing. What the disk refuses makes
a difference to the save alone.
-/

namespace QuantumRisk

/-- What an analysis works with. -/
structure Analyzer where
  matcher : Matcher
  weights : RiskWeights
  store : Store
  withPlaces : Bool := true

/-- What an analysis finds. -/
structure Analysis where
  report : Report
  findings : List Finding
  diagnostics : List Diagnostic

namespace Analyzer

/-- The analyzer that settings describe. -/
def ofSettings (s : Settings) : Except Fault Analyzer :=
  match s.riskWeights with
  | .error r => .error (.rejected r)
  | .ok weights =>
    .ok
      { matcher := .ofRules (defaultRules (s.byteTypeSet.map .str)), weights,
        store := .ofSettings s }

/-- The events of building the graph of a contract. -/
def buildEvents (contract : String) (tries : List Solidity.Attempt) : List Event :=
  tries.filterMap fun t ↦
    match t.outcome with
    | .ok _ => none
    | .error fault => some (.buildFailed contract t.withPlaces fault.message)

/-- Analyze a loaded contract. -/
def analyzeUnit (a : Analyzer) (u : SourceUnit) : Except Fault Analysis × List Event :=
  let parse := Solidity.parseUnit a.withPlaces u
  let built := buildEvents u.basename parse.tries
  match parse.result with
  | .error f => (.error (.failure f), built)
  | .ok tree =>
    let parsed := built ++ tree.diagnostics.map (.recovered u.basename)
    match a.matcher.run tree with
    | .error f => (.error (.matching f), parsed)
    | .ok found =>
      let events := parsed ++ found.findings.map (.matched tree.sourceName)
      match Report.build u.basename found a.weights with
      | .error r => (.error (.rejected r), events)
      | .ok report => (.ok ⟨report, found.findings, tree.diagnostics⟩, events)

/-- Load and analyze a contract. -/
def analyze (a : Analyzer) (path : Option String) (w : Workspace) :
    Except Fault Analysis × List Event :=
  match w.loadSource path with
  | .error e => (.error e, [])
  | .ok u => a.analyzeUnit u

/-- The event that ends a run with a fault; only failures are told. -/
def failedEvents (path : Option String) : Fault → List Event
  | .failure f => [.failed path f]
  | _ => []

/-- Analyze a contract and save the report. -/
def run (a : Analyzer) (path : Option String) (w : Workspace) (disk : Disk := .willing) :
    Except Fault (Analysis × Path) × List Event × Workspace :=
  match a.analyze path w with
  | (.error e, events) => (.error e, .analyzing path :: events ++ failedEvents path e, w)
  | (.ok found, events) =>
    match a.store.write found.report w disk with
    | (.error e, more, w) =>
      (.error e, .analyzing path :: events ++ more ++ failedEvents path e, w)
    | (.ok saved, more, w) =>
      (.ok (found, saved),
        .analyzing path :: events ++ more ++ [.complete found.report saved.text], w)

end Analyzer

end QuantumRisk

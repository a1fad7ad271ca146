import QuantumRisk.Failure
import QuantumRisk.Finding
import QuantumRisk.Log.Setup
import QuantumRisk.Report

/-!
# Events

What happens during a run is told in events, in the order in which it happens. An event becomes a
log record; whether the record is shown is for the log to decide.
-/

namespace QuantumRisk

inductive Event where
  | analyzing (path : Option String)
  /-- The graph of a contract could not be built. -/
  | buildFailed (contract : String) (withPlaces : Bool) (reason : String)
  /-- A syntax error was passed over. -/
  | recovered (contract : String) (diagnostic : Diagnostic)
  | matched (contract : String) (finding : Finding)
  /-- A report name was taken by another report. -/
  | nameTaken (name : String)
  | saved (contract path : String)
  /-- A saved report could not be read. -/
  | skipped (name reason : String)
  | failed (path : Option String) (failure : Failure)
  | complete (report : Report) (path : String)
  | starting (app environment directory : String)
  | stopping (app : String)

namespace Event

private def pathValue : Option String → Json
  | some p => .str p
  | none => .null

/-- The record of an event. -/
def record : Event → Log.Record
  | .analyzing path =>
    { logger := "pqscan.analyzer.analyzer", level := 20, message := "Analyzing %s"
      args := [pathValue path], path := "analyzer", function := some "run" }
  | .buildFailed contract withPlaces reason =>
    { logger := "pqscan.analyzer.source_loader", level := 10
      message := "AST build failed (locations=%s): %s", args := [.bool withPlaces, .str reason]
      path := "source_loader", function := some "_build_ast"
      extra := [("contract", .str contract)] }
  | .recovered contract diagnostic =>
    { logger := "pqscan.analyzer.source_loader", level := 30
      message := "Recovered from syntax error at %s", args := [.str diagnostic.text]
      path := "source_loader", function := some "parse", extra := [("contract", .str contract)] }
  | .matched contract finding =>
    let place := match finding.location with
      | some l => l.text
      | none => "?"
    { logger := "pqscan.analyzer.matcher", level := 10, message := "%s matched %r at %s"
      args := [.str finding.rule, finding.name, .str place]
      path := "matcher", function := some "match"
      extra := [("contract", .str contract), ("finding_kind", .str finding.kind.name)] }
  | .nameTaken name =>
    { logger := "pqscan.reports.store", level := 10
      message := "Report name %s already taken, retrying", args := [.str name]
      path := "store", function := some "_claim" }
  | .saved contract path =>
    { logger := "pqscan.reports.store", level := 20, message := "Report saved to %s"
      args := [.str path], path := "store", function := some "write"
      extra := [("contract", .str contract), ("report_path", .str path)] }
  | .skipped name reason =>
    { logger := "pqscan.reports.store", level := 30
      message := "Skipping unreadable report %s: %s", args := [.str name, .str reason]
      path := "store", function := some "_load_readable" }
  | .failed path failure =>
    { logger := "pqscan.analyzer.analyzer", level := 40, message := "Analysis of %s failed: %s"
      args := [pathValue path, .str failure.message], path := "analyzer", function := some "run"
      extra := [("error_code", .str failure.code)] }
  | .complete report path =>
    { logger := "pqscan.analyzer.analyzer", level := 20
      message := "Analysis complete: risk score %d (%d ecrecover, %d key exposure)"
      args := [.int report.riskScore, .int report.ecrecoverCount, .int report.keyExposureCount]
      path := "analyzer", function := some "run"
      extra := [("contract", .str report.contract), ("report_path", .str path),
        ("duration_ms", .int 0)] }
  | .starting app environment directory =>
    { logger := "pqscan.api.main", level := 20
      message := "Starting %s in %s mode (reports: %s)"
      args := [.str app, .str environment, .str directory]
      path := "main", function := some "lifespan" }
  | .stopping app =>
    { logger := "pqscan.api.main", level := 20, message := "Shutting down %s"
      args := [.str app], path := "main", function := some "lifespan" }

/-- The lines of events that a log shows at a time. -/
def lines (setup : Log.Setup) (clock : Int) (events : List Event) : String :=
  String.join (events.map fun e ↦
    match setup.line clock e.record with
    | .ok (some line) => line ++ "\n"
    | _ => "")

end Event

end QuantumRisk

import QuantumRisk.About
import QuantumRisk.Analysis
import QuantumRisk.Console.Arguments

/-!
# The console

A command line is carried out in a workspace. What it prints is collected: results on one channel,
log lines and complaints on the other. It ends with an exit code, unless the command line was not
understood or a fault was met that the program does not answer for.
-/

namespace QuantumRisk.Console

inductive Ending where
  /-- The command was carried out and ended with an exit code. -/
  | exit (code : Nat)
  /-- The command line was answered without carrying out a command. -/
  | stopped (code : Nat)
  /-- A fault was passed on that nothing took care of. The status is then 1 as well, but this is not
  the ending `exit 1`, which a command chooses itself. -/
  | raised (fault : Fault)
  deriving Inhabited

/-- A request to offer the network service. -/
structure Served where
  title : String
  host : String
  port : Int
  deriving DecidableEq, Inhabited

structure Outcome where
  stdout : String := ""
  stderr : String := ""
  ending : Ending := .exit 0
  served : List Served := []
  deriving Inhabited

/-- Put a text before what was printed as a complaint. -/
def Outcome.after (o : Outcome) (stderr : String) : Outcome :=
  { o with stderr := stderr ++ o.stderr }

/-! ## Colours -/

def reset : String := "\x1b[0m"
def bold : String := "\x1b[1m"
def dim : String := "\x1b[2m"
def red : String := "\x1b[91m"
def green : String := "\x1b[92m"
def yellow : String := "\x1b[93m"
def cyan : String := "\x1b[96m"

def coloured (text code : String) : String := code ++ text ++ reset

def scoreColour (score : Nat) : String :=
  if score ≥ 50 then red else if score > 0 then yellow else green

def banner : String :=
  "\n" ++ bold ++ cyan ++ "\n"
    ++ " _ __   __ _ ___  ___ __ _ _ __\n"
    ++ "| '_ \\ / _` / __|/ __/ _` | '_ \\\n"
    ++ "| |_) | (_| \\__ \\ (_| (_| | | | |\n"
    ++ "| .__/ \\__, |___/\\___\\__,_|_| |_|\n"
    ++ "|_|       |_|" ++ reset ++ "\n"
    ++ "  " ++ dim ++ "Quantum-risk scanner for Solidity — v" ++ programVersion ++ reset ++ "\n"

/-! ## Commands -/

/-- A number on three places. -/
def numbered (n : Nat) : String :=
  let digits := Nat.toDigits 10 n
  String.ofList (List.replicate (3 - digits.length) ' ' ++ digits)

/-- The account of a saved report. -/
def reportText (r : Report) (path : String) (quiet : Bool) : String :=
  let head := "\n" ++ bold ++ "Analysis complete" ++ reset ++ "\n"
    ++ "  Result saved to: " ++ coloured path cyan ++ "\n"
  if quiet then head
  else
    let facts := "\n  Contract:             " ++ r.contract ++ "\n"
      ++ "  Risk score:           "
      ++ coloured (toString r.riskScore ++ "/100") (scoreColour r.riskScore) ++ "\n"
      ++ "  ecrecover calls:      " ++ toString r.ecrecoverCount ++ "\n"
      ++ "  Public key exposures: " ++ toString r.keyExposureCount ++ "\n"
    let warnings := match r.warnings with
      | [] => coloured "\n  ✓ No quantum-risk patterns found." green ++ "\n"
      | ws => "\n  " ++ bold ++ "Warnings" ++ reset ++ "\n"
        ++ String.join (ws.mapIdx fun i warning ↦
          "  " ++ dim ++ numbered (i + 1) ++ "." ++ reset ++ " " ++ coloured warning yellow ++ "\n")
    head ++ facts ++ warnings ++ "\n"

def failureText (f : Failure) : String :=
  coloured ("Error [" ++ f.code ++ "]: " ++ f.message) red ++ "\n"

/-- Settings with another report directory, if one is named. -/
def withReportDir (s : Settings) : Option String → Settings
  | none => s
  | some dir => if dir = "" then s else { s with reportDir := dir }

/-- What a command works with. -/
structure Context where
  settings : Settings
  setup : Log.Setup
  quiet : Bool

def scan (c : Context) (path reportDir : Option String) (format : Format) (w : Workspace) :
    Outcome × Workspace :=
  if (path.getD "") = "" then
    ({ stderr := failureText (.usage "provide the path of a contract to scan.")
        ++ "  Usage: pqscan scan <path_to_contract.sol>\n"
       ending := .exit 2 }, w)
  else
    match Analyzer.ofSettings (withReportDir c.settings reportDir) with
    | .error e => ({ ending := .raised e }, w)
    | .ok analyzer =>
      let (result, events, w') := analyzer.run path w
      let log := Event.lines c.setup w.clock events
      match result with
      | .error (.failure f) =>
        ({ stderr := log ++ failureText f, ending := .exit f.kind.exitCode }, w')
      | .error e => ({ stderr := log, ending := .raised e }, w')
      | .ok (found, saved) =>
        let text := match format with
          | .json => found.report.text ++ "\n"
          | .summary => reportText found.report saved.text c.quiet
        ({ stdout := text, stderr := log }, w')

def storeFor (c : Context) (reportDir : Option String) : Store :=
  .ofSettings (withReportDir c.settings reportDir)

def report (c : Context) (which : Selection) (reportDir : Option String) (w : Workspace) :
    Outcome :=
  let store := storeFor c reportDir
  match which with
  | .list =>
    match store.list w.files with
    | .error e => { ending := .raised (.path e) }
    | .ok paths => { stdout := String.join (paths.map (·.name ++ "\n")) }
  | .latest =>
    let (result, events) := store.latest w.files
    let log := Event.lines c.setup w.clock events
    match result with
    | .error e => { stderr := log, ending := .raised e }
    | .ok none =>
      let text := coloured ("No analysis reports found in " ++ store.directory.text) yellow
      { stderr := log ++ text ++ "\n", ending := .exit 1 }
    | .ok (some r) => { stdout := r.text ++ "\n", stderr := log }

def summary (c : Context) (reportDir : Option String) (w : Workspace) : Outcome :=
  let (result, events) := (storeFor c reportDir).summary w.files
  let log := Event.lines c.setup w.clock events
  match result with
  | .error e => { stderr := log, ending := .raised e }
  | .ok s => { stdout := s.toJson.render .console ++ "\n", stderr := log }

def config (c : Context) : Outcome :=
  let fields := c.settings.fields.mergeSort fun a b ↦ decide (a.1 ≤ b.1)
  { stdout := "\n" ++ bold ++ "pqscan Configuration" ++ reset ++ "\n\n"
      ++ String.join (fields.map fun (name, v) ↦
        "  " ++ dim ++ name ++ ":" ++ reset ++ "  " ++ v.display ++ "\n")
      ++ "\n" }

/-- Offer the network service; an empty host and port zero stand for the settings. -/
def serve (c : Context) (host : Option String) (port : Option Int) : Outcome :=
  let host := match host with
    | some h => if h = "" then c.settings.apiHost else h
    | none => c.settings.apiHost
  let port := match port with
    | some p => if p = 0 then c.settings.apiPort else p
    | none => c.settings.apiPort
  { served := [⟨serviceTitle, host, port⟩] }

/-- Carry out a command. -/
def perform (c : Context) (w : Workspace) : Option Command → Outcome × Workspace
  | none => ({ stdout := mainForm.help }, w)
  | some (.scan path reportDir format) => scan c path reportDir format w
  | some (.report which reportDir) => (report c which reportDir w, w)
  | some (.summary reportDir) => (summary c reportDir w, w)
  | some .config => (config c, w)
  | some (.serve host port) => (serve c host port, w)

/-- The name of the level that the log is set to. -/
def levelName (s : Settings) (quiet : Bool) : String :=
  if s.debug then "DEBUG" else if quiet then "WARNING" else s.logLevel

/-- Carry out a command line. -/
def run (args : List String) (w : Workspace) : Outcome × Workspace :=
  match readArguments args with
  | .error stop =>
    ({ stdout := stop.stdout, stderr := stop.stderr, ending := .stopped stop.code }, w)
  | .ok a =>
    if a.version then ({ stdout := programName ++ " " ++ programVersion ++ "\n" }, w)
    else
      let (result, w) := w.settings
      match result with
      | .error e => ({ ending := .raised e }, w)
      | .ok settings =>
        match Log.setup settings.appEnv (levelName settings a.quiet) with
        | .error e => ({ ending := .raised (.level e) }, w)
        | .ok setup =>
          let shown := if a.noBanner || a.quiet then "" else banner ++ "\n"
          let (outcome, w) := perform ⟨settings, setup, a.quiet⟩ w a.command
          (outcome.after shown, w)

end QuantumRisk.Console

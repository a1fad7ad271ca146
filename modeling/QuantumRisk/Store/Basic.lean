import QuantumRisk.Event
import QuantumRisk.Store.Summary
import QuantumRisk.Store.Token
import QuantumRisk.Workspace

/-!
# The report store

Reports are kept in one directory, each in a file named by its token. A report is first written to a
temporary file, which is then given its name in one step that fails if the name is taken; so a name
never stands for half a report and no report replaces another. If the name is taken the next token
is tried, up to a fixed number of times. The temporary file is removed in any case; if the disk
refuses this, the refusal is passed on, and the file stays with all else that was done.

When reports are read, files that do not hold a report are passed over.
-/

namespace QuantumRisk

structure Store where
  directory : Path
  suffix : String := Store.defaultSuffix
  deriving DecidableEq, Inhabited

namespace Store

def ofSettings (s : Settings) : Store := ⟨.ofString s.reportDir, s.reportSuffix⟩

/-! ## Writing -/

/-- How many names are tried. -/
def claimLimit : Nat := 1000

/-- The name of a temporary file. -/
def temporaryName (n : Nat) : String := "." ++ padded 8 n ++ ".tmp"

/-- The temporary paths in a directory, more than the tree has entries. -/
def temporaries (fs : FileSystem) (directory : Place) : List Path :=
  (List.range (fs.entries.length + 1)).map fun n ↦
    FileSystem.pathOf (directory ++ [temporaryName n])

/-- A temporary path in a directory that nothing stands at. -/
def freeTemporary (fs : FileSystem) (directory : Place) : Option Path :=
  (temporaries fs directory).find? fun p ↦ !fs.isTaken p

def cannotCreate (s : Store) (reason : String) : Fault :=
  .failure (.write ("cannot create report directory " ++ s.directory.text ++ ": " ++ reason)
    s.directory.text)

def cannotWrite (s : Store) (reason : String) : Fault :=
  .failure (.write ("cannot write report to " ++ s.directory.text ++ ": " ++ reason)
    s.directory.text)

def cannotClaim (s : Store) : Fault :=
  .failure (.write ("could not claim a unique report name in " ++ s.directory.text)
    s.directory.text)

/-- The fault of an action on files: a refusal becomes a failure. -/
def faultOf (refused : String → Fault) : PathFault → Fault
  | .refused reason _ => refused reason.text
  | e => .path e

/-- The path of the report with a token. -/
def reportPath (s : Store) (token : Int) : Path :=
  s.directory.append (reportName token s.suffix)

/-- Draw the next token; the clock moves on. -/
def draw (w : Workspace) : Int × Workspace :=
  let token := nextToken w.lastToken w.clock
  (token, { w with lastToken := token, clock := w.ticks.headD w.clock, ticks := w.ticks.tail })

/-- Give a temporary file the first free name, trying at most `attempts` tokens. -/
def claim (s : Store) (temporary : Path) (attempts : Nat) (w : Workspace)
    (disk : Disk := .willing) : Except Fault Path × List Event × Workspace :=
  match attempts with
  | 0 => (.error s.cannotClaim, [], w)
  | attempts + 1 =>
    let (token, w) := draw w
    let target := s.reportPath token
    match disk.allow .link target (w.files.link temporary target) with
    | .ok files => (.ok target, [], { w with files })
    | .error (.refused .exists _) =>
      let (result, events, w) := claim s temporary attempts w disk
      (result, .nameTaken target.name :: events, w)
    | .error e => (.error (faultOf s.cannotWrite e), [], w)

/-- Give a temporary file a name, if all that it should hold has come into it. -/
def release (s : Store) (temporary : Path) (stop : Option Refusal) (w : Workspace)
    (disk : Disk := .willing) : Except Fault Path × List Event × Workspace :=
  match stop with
  | some reason => (.error (s.cannotWrite reason.text), [], w)
  | none => s.claim temporary claimLimit w disk

/-- Remove a temporary file when all else is done. A refusal takes the place of any other end. -/
def discard (temporary : Path) (disk : Disk) :
    Except Fault Path × List Event × Workspace → Except Fault Path × List Event × Workspace
  | (result, events, w) =>
    match disk.refuses .remove temporary with
    | some reason => (.error (.path (.refused reason temporary.text)), events, w)
    | none => (result, events, { w with files := w.files.remove temporary })

/-- Write a text to a temporary file and give it a name. -/
def deposit (s : Store) (payload : String) (w : Workspace) (disk : Disk := .willing) :
    Except Fault Path × List Event × Workspace :=
  match freeTemporary w.files (w.files.lexical s.directory) with
  | none => (.error (s.cannotWrite "No usable temporary file name found"), [], w)
  | some temporary =>
    let (bytes, stop) := disk.taken temporary (Text.encode payload)
    match disk.allow .create temporary (w.files.create temporary (.file bytes)) with
    | .error e => (.error (faultOf s.cannotWrite e), [], w)
    | .ok files => discard temporary disk (s.release temporary stop { w with files } disk)

/-- Save a report under a fresh name. -/
def write (s : Store) (r : Report) (w : Workspace) (disk : Disk := .willing) :
    Except Fault Path × List Event × Workspace :=
  match w.files.makeDirectories s.directory disk with
  | (.error e, files) => (.error (faultOf s.cannotCreate e), [], { w with files })
  | (.ok (), files) =>
    match s.deposit r.text { w with files } disk with
    | (.error e, events, w) => (.error e, events, w)
    | (.ok path, events, w) =>
      (.ok path, events ++ [.saved r.contract path.text], w)

/-! ## Reading -/

/-- Does a name end with the suffix? -/
def hasSuffix (s : Store) (name : String) : Bool := s.suffix.toList.isSuffixOf name.toList

/-- The reports in order of their names. -/
def list (s : Store) (fs : FileSystem) : Except PathFault (List Path) := do
  if !(← fs.isDirectory s.directory) then return []
  let names ← fs.names s.directory
  let files ← names.filterM fun name ↦ fs.isFile (s.directory.append name)
  let reports := files.filter s.hasSuffix
  return (reports.mergeSort fun a b ↦ decide (a ≤ b)).map s.directory.append

/-- Load a report. -/
def load (fs : FileSystem) (p : Path) : Except Fault Report :=
  match fs.readText p with
  | .error e => .error (.ofRead e)
  | .ok text =>
    match Report.ofText text with
    | .error r => .error (.rejected r)
    | .ok r => .ok r

/-- The words for a rejection in the log. -/
def rejectionText (r : Validation.Rejection) : String :=
  let step : Validation.Step → String
    | .member name => name
    | .item i => toString i
  let lines := r.complaints.map fun c ↦
    "\n" ++ String.intercalate "." (c.place.map step) ++ "\n  "
      ++ c.issue.message.getD "Invalid JSON" ++ " [type=" ++ c.issue.code ++ "]"
  let n := r.complaints.length
  toString n ++ " validation error" ++ (if n = 1 then "" else "s") ++ " for " ++ r.model
    ++ String.join lines

/-- Load a report, passing over a file that does not hold one. -/
def loadReadable (fs : FileSystem) (p : Path) : Except Fault (Option Report) × List Event :=
  match load fs p with
  | .ok r => (.ok (some r), [])
  | .error (.rejected r) => (.ok none, [.skipped p.name (rejectionText r)])
  | .error (.path (.refused reason path)) =>
    (.ok none, [.skipped p.name (PathFault.refused reason path).message])
  | .error e => (.error e, [])

/-- The path of the report with the greatest name. -/
def latestPath (s : Store) (fs : FileSystem) : Except PathFault (Option Path) :=
  (s.list fs).map (·.getLast?)

/-- The first readable report of a list. -/
def firstReadable (fs : FileSystem) : List Path → Except Fault (Option Report) × List Event
  | [] => (.ok none, [])
  | p :: rest =>
    match loadReadable fs p with
    | (.error e, events) => (.error e, events)
    | (.ok (some r), events) => (.ok (some r), events)
    | (.ok none, events) =>
      let (result, more) := firstReadable fs rest
      (result, events ++ more)

/-- The readable report with the greatest name. -/
def latest (s : Store) (fs : FileSystem) : Except Fault (Option Report) × List Event :=
  match s.list fs with
  | .error e => (.error (.path e), [])
  | .ok paths => firstReadable fs paths.reverse

/-- All readable reports of a list. -/
def allReadable (fs : FileSystem) : List Path → Except Fault (List Report) × List Event
  | [] => (.ok [], [])
  | p :: rest =>
    match loadReadable fs p with
    | (.error e, events) => (.error e, events)
    | (.ok found, events) =>
      let (result, more) := allReadable fs rest
      (result.map (found.toList ++ ·), events ++ more)

/-- The summary of all readable reports. -/
def summary (s : Store) (fs : FileSystem) : Except Fault Summary × List Event :=
  match s.list fs with
  | .error e => (.error (.path e), [])
  | .ok paths =>
    let (reports, events) := allReadable fs paths
    (reports.map fun rs ↦ ⟨rs.map Digest.ofReport⟩, events)

end Store

end QuantumRisk

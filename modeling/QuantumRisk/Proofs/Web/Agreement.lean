import Mathlib
import QuantumRisk.Console.Run
import QuantumRisk.Proofs.Analysis.Clean
import QuantumRisk.Proofs.Analysis.Surroundings
import QuantumRisk.Proofs.Json.Literals
import QuantumRisk.Proofs.Report.RoundTrip
import QuantumRisk.Proofs.Store.Damage
import QuantumRisk.Proofs.Web.Confinement
import QuantumRisk.Proofs.Workspace.Load

/-!
# The console and the service agree

There are two ways to ask for a scan, for the latest report and for the summary: a command line and
a request. They have writers of their own, which differ in layout and in what they escape, and ways
of their own to tell what went wrong. What is told is the same all the same.

* The latest report is printed exactly if the service sends it, and both texts are read as the same
  value. It is missing for one exactly if it is missing for the other.
* A summary that is printed is also sent. The two texts are read as the same value, and this is so
  too if numbers are taken as they are written.
* A scan of a contract, under its canonical path, succeeds on the console exactly if it does for the
  service. Both save the same file, and the console prints what is in it.
-/

namespace QuantumRisk

open FileSystem (pathOf)

/-! ## Command lines -/

namespace Console

variable {args : List String} {w : Workspace} {c : Context} {command : Command}

/-- A command line that is read as a command, in a workspace with settings and a log. -/
structure Invokes (args : List String) (w : Workspace) (c : Context) (command : Command) :
    Prop where
  arguments : ∃ a, readArguments args = .ok a ∧ a.version = false ∧ a.quiet = c.quiet ∧
    a.command = some command
  settings : w.settings.1 = .ok c.settings
  setup : Log.setup c.settings.appEnv (levelName c.settings c.quiet) = .ok c.setup

/-- A command line does what its command does; a banner goes with the complaints. -/
theorem run_of_invokes (h : Invokes args w c command) : ∃ shown,
    run args w = ((perform c w.settings.2 (some command)).1.after shown,
      (perform c w.settings.2 (some command)).2) := by
  obtain ⟨⟨a, hread, hversion, hquiet, hcommand⟩, hsettings, hsetup⟩ := h
  rw [run, hread]
  rcases hw : w.settings with ⟨result, w₁⟩
  rw [hw] at hsettings
  cases hsettings
  simp only [hversion, hquiet, hcommand, hsetup]
  exact ⟨_, rfl⟩

end Console

namespace Web

open Console (Invokes Outcome Context storeFor withReportDir)

variable {s : Settings} {r : Request} {w w' : Workspace} {c : Context} {dir : Option String}

/-! ## Requests -/

/-- A request for what is at a route. -/
structure Request.Gets (r : Request) (s : Settings) (route : Route) : Prop where
  method : r.method = "GET"
  route : routeOf s (unquote r.path) = some route

theorem handle_get {route : Route} (h : r.Gets s route) (w : Workspace) :
    handle s r w = (withOrigin r (answer s route r.query w).1, (answer s route r.query w).2) := by
  have hmethod : route.methods.contains "GET" = true := by cases route <;> rfl
  have hdispatch : dispatch s r w = answer s route r.query w := by
    simp only [dispatch, h.route, h.method, hmethod, if_true]
  rw [handle, hdispatch, h.method, withOrigin]
  split
  · next hoptions _ _ => exact absurd hoptions (by decide)
  · dsimp only
    cases (answer s route r.query w).1.fault <;> rfl

@[simp] theorem status_withOrigin (r : Request) (a : Response) :
    (withOrigin r a).status = a.status := by
  rw [withOrigin]
  split <;> rfl

@[simp] theorem body_withOrigin (r : Request) (a : Response) :
    (withOrigin r a).body = a.body := by
  rw [withOrigin]
  split <;> rfl

theorem status_faultAnswer {e : Fault} (h : ∀ f, e ≠ .failure f) :
    (faultAnswer e).status = 500 := by
  cases e with
  | failure f => exact absurd rfl (h f)
  | rejected | path | text | matching | level => rfl

theorem status_faultAnswer_ne (e : Fault) : (faultAnswer e).status ≠ 200 := by
  cases e with
  | failure f =>
    have hstatus : (faultAnswer (.failure f)).status = f.kind.httpStatus := rfl
    rw [hstatus]
    cases f.kind <;> decide
  | rejected | path | text | matching | level =>
    rw [status_faultAnswer (by simp)]
    decide

/-- Two texts are read as the same value. -/
def SameValue (text text' : String) : Prop :=
  ∃ v, Json.parse? text = some v ∧ Json.parse? text' = some v

/-! ## The latest report -/

section Latest

variable {fs : FileSystem} {e : Fault}

theorem loadReadable_ne_failure {p : Path}
    (h : (Store.loadReadable fs p).1 = .error e) : ∀ f, e ≠ .failure f := by
  rw [Store.loadReadable] at h
  split at h
  · cases h
  · cases h
  · cases h
  · next e' _ _ hload =>
    cases h
    rw [Store.load] at hload
    split at hload
    · next fault _ =>
      cases hload
      cases fault <;> simp [Fault.ofRead]
    · split at hload
      · cases hload
        simp
      · cases hload

theorem firstReadable_ne_failure {ps : List Path}
    (h : (Store.firstReadable fs ps).1 = .error e) : ∀ f, e ≠ .failure f := by
  induction ps with
  | nil => cases h
  | cons p ps ih =>
    rw [Store.firstReadable_cons] at h
    split at h
    · next hload =>
      cases h
      exact loadReadable_ne_failure hload
    · cases h
    · exact ih h

/-- A search for the latest report may have to be given up, which is no failure of its own. -/
theorem latest_ne_failure {store : Store} (h : (store.latest fs).1 = .error e) :
    ∀ f, e ≠ .failure f := by
  rw [Store.latest] at h
  split at h
  · cases h
    simp
  · exact firstReadable_ne_failure h

end Latest

/-- The console and the service tell the same about the latest report. -/
structure SameLatest (o : Outcome) (a : Response) : Prop where
  found : o.ending = .exit 0 ↔ a.status = 200
  missing : o.ending = .exit 1 ↔ a.status = 404
  decoded : o.ending = .exit 0 → ∃ body, a.body = some body ∧ SameValue o.stdout body

theorem blanks_newline : Json.Blanks ['\n'] := by simp [Json.Blanks, Json.Reader.isSpace]

/-- A report is read back from what the console prints. -/
theorem parse?_printed (r : Report) : Json.parse? (r.text ++ "\n") = some r.toJson := by
  obtain ⟨hkeys, hreread⟩ := Json.reread_of_exact r.toJson r.exact_toJson
  have hread := Json.parse?_render_append .report hkeys blanks_newline
  rwa [hreread] at hread

theorem sameLatest (hstore : storeFor c dir = .ofSettings s) (shown : String) :
    SameLatest ((Console.report c .latest dir w).after shown)
      (withOrigin r (answerOf (latestReport s w.files))) := by
  rw [Console.report, latestReport, hstore]
  rcases hlatest : (Store.ofSettings s).latest w.files with ⟨result, events⟩
  cases result with
  | error e =>
    have hfault := latest_ne_failure (congrArg Prod.fst hlatest)
    have hstatus := status_faultAnswer hfault
    constructor <;> simp [Outcome.after, answerOf, hstatus]
  | ok result =>
    cases result with
    | none =>
      constructor <;>
        simp [Outcome.after, answerOf, faultAnswer, problemAnswer, Problem.ofFailure,
          Failure.notFound, FailureKind.httpStatus]
    | some report =>
      refine ⟨by simp [Outcome.after, answerOf, jsonAnswer],
        by simp [Outcome.after, answerOf, jsonAnswer], fun _ ↦ ?_⟩
      exact ⟨report.toJson.render .wire, body_withOrigin _ _, report.toJson,
        parse?_printed report, Json.parse?_render .wire report.exact_toJson⟩

/-! ## The summary -/

theorem uniqueKeys_digest (d : Digest) : d.toJson.UniqueKeys := by
  simp [Digest.toJson, Json.UniqueKeys, Json.UniqueKeysMembers]

theorem uniqueKeys_summary (m : Summary) : m.toJson.UniqueKeys := by
  have hdigests (ds : List Digest) : Json.UniqueKeysItems (ds.map (·.toJson)) := by
    induction ds with
    | nil => trivial
    | cons d ds ih => exact ⟨uniqueKeys_digest d, ih⟩
  refine ⟨?_, trivial, trivial, hdigests m.digests, trivial⟩
  simp

/-- The console and the service tell the same about all reports, to the last digit. -/
structure SameSummary (o : Outcome) (a : Response) : Prop where
  found : o.ending = .exit 0 ↔ a.status = 200
  decoded : o.ending = .exit 0 → ∃ body, a.body = some body ∧ SameValue o.stdout body ∧
    SameValue (Json.quoteNumbers o.stdout) (Json.quoteNumbers body)

theorem sameSummary (hstore : storeFor c dir = .ofSettings s) (shown : String) :
    SameSummary ((Console.summary c dir w).after shown)
      (withOrigin r (answerOf (riskSummary s w.files))) := by
  rw [Console.summary, riskSummary, hstore]
  rcases (Store.ofSettings s).summary w.files with ⟨result, events⟩
  cases result with
  | error e =>
    have hstatus := status_faultAnswer_ne e
    constructor <;> simp [Outcome.after, answerOf, Except.map, hstatus]
  | ok m =>
    have hkeys := uniqueKeys_summary m
    have hread := Json.parse?_render_append .console hkeys blanks_newline
    have hliteral := Json.parse?_quoteNumbers_render .console hkeys blanks_newline
    have hnone : Json.Blanks [] := by simp [Json.Blanks]
    have hliteral' := Json.parse?_quoteNumbers_render .wire hkeys hnone
    rw [String.ofList_nil, String.append_empty] at hliteral'
    refine ⟨by simp [Outcome.after, answerOf, Except.map, jsonAnswer], fun _ ↦ ?_⟩
    exact ⟨m.toJson.render .wire, body_withOrigin _ _,
      ⟨_, hread, Json.parse?_render_reread .wire hkeys⟩, _, hliteral, hliteral'⟩

/-! ## Scans -/

/-- The path of a contract, as it is found at its canonical place below the root. -/
structure CanonicalBelow (s : Settings) (fs : FileSystem) (path : String) (place : Place) :
    Prop where
  grounded : fs.Grounded
  root : ∃ root, fs.IsCanonical (.ofString s.contractsRoot) root ∧ root <+: place
  canonical : fs.IsCanonical (pathOf place) place
  reads : Path.ofString path = pathOf place
  null_notMem : '\x00' ∉ path.toList
  null_notMem_root : '\x00' ∉ s.contractsRoot.toList

section CanonicalBelow

variable {fs : FileSystem} {path : String} {place : Place}

theorem slash_mem_of_ofString (h : Path.ofString path = pathOf place) : '/' ∈ path.toList := by
  by_contra hslash
  have hanchor : Path.anchorOf path.toList = "/" := congrArg Path.anchor h
  rw [Path.anchorOf_of_notMem hslash] at hanchor
  exact absurd hanchor (by decide)

theorem ne_empty_of_ofString (h : Path.ofString path = pathOf place) : path ≠ "" := by
  rintro rfl
  exact absurd (slash_mem_of_ofString h) (by simp)

theorem CanonicalBelow.resolveContract (h : CanonicalBelow s fs path place) :
    resolveContract s fs path = .ok place := by
  obtain ⟨root, hroot, hbelow⟩ := h.root
  have happend : (pathOf root).append path = pathOf place := by
    rw [Path.append, h.reads]
    rfl
  rw [resolveContract_of_isCanonical h.grounded h.null_notMem_root h.null_notMem hroot
    (happend ▸ h.canonical), if_pos hbelow]

theorem CanonicalBelow.ofString_text (h : CanonicalBelow s fs path place) :
    Path.ofString (pathOf place).text = pathOf place := by
  have hreal := FileSystem.realPlace_of_isCanonical h.grounded
    (fun name hname ↦ FileSystem.usable_of_mem_ofString h.null_notMem (h.reads ▸ hname))
    (h.reads ▸ null_notMem_text_ofString h.null_notMem) h.canonical
  exact Path.ofString_text (plain_of_firm hreal.2)

/-- An absolute path is looked up as it is. -/
theorem looksUp_iff (h : Path.ofString path = pathOf place) {p : Path} :
    w.LooksUp (some path) p ↔ p = pathOf place := by
  have hnamed : ¬ Workspace.Unnamed (some path) := by
    rw [Workspace.unnamed_some_iff, Text.isBlankText, List.all_eq_true]
    exact fun hblank ↦ absurd (hblank '/' (slash_mem_of_ofString h)) (by decide)
  have hexpand : w.expandHome (.ofString path) = .ok (pathOf place) := by
    rw [h]
    rfl
  simp [Workspace.LooksUp, hnamed, hexpand, eq_comm]

/-- Absolute paths that are read in the same way lead to the same contract, in all surroundings. -/
theorem loadSource_iff {path' : String} (h : Path.ofString path = pathOf place)
    (h' : Path.ofString path' = pathOf place) (v : Workspace) (u : SourceUnit) :
    (w.amid v).loadSource (some path') = .ok u ↔ w.loadSource (some path) = .ok u := by
  rw [Workspace.loadSource_eq_ok_iff, Workspace.loadSource_eq_ok_iff, Workspace.Readable,
    Workspace.Readable, looksUp_iff h, looksUp_iff h']
  rfl

/-! ### What is saved and told -/

/-- A file that has come to be at a path and holds a text. -/
def NewFile (fs fs' : FileSystem) (p : Path) (text : String) : Prop :=
  ∃ q, fs.entryAt q = none ∧ fs'.locate true p = .ok q ∧
    fs'.entryAt q = some (.file (Text.encode text))

theorem newFile_of_write {store : Store} {report : Report} {p : Path} {events : List Event}
    (h : store.write report w = (.ok p, events, w')) :
    NewFile w.files w'.files p report.text := by
  obtain ⟨files, q, hmake, hsaved⟩ := Store.write_ok h
  have hway := FileSystem.madeOnWay_makeDirectories store.directory w.files
  rw [hmake] at hway
  refine ⟨q, hway.grown.entryAt_eq_none hsaved.free, ?_, ?_⟩
  · exact hsaved.extends.locate (FileSystem.locate_follow hsaved.locate (by simp [hsaved.free]))
  · have hne : q ≠ [] := by
      rintro rfl
      simpa using hsaved.free
    rw [hsaved.files]
    exact FileSystem.entryAt_put_self hne

/-- The members that are both in a report and in the answer to a scan. -/
def sharedMembers : List String :=
  ["contract", "riskScore", "ecrecoverCount", "publicKeyExposureCount", "warnings"]

/-- The console and the service do the same scan and save the same report. -/
structure SameScan (fs : FileSystem) (o : Outcome × Workspace) (a : Response × Workspace) :
    Prop where
  found : o.1.ending = .exit 0 ↔ a.1.status = 200
  files : o.1.ending = .exit 0 → a.2.files = o.2.files
  told : o.1.ending = .exit 0 → ∃ saved text body u v,
    NewFile fs o.2.files saved text ∧ o.1.stdout = text ++ "\n" ∧ a.1.body = some body ∧
    Json.parse? o.1.stdout = some u ∧ Json.parse? body = some v ∧
    v.get? "reportFile" = some (.str saved.name) ∧
    ∀ key ∈ sharedMembers, ∃ x, u.get? key = some x ∧ v.get? key = some x

theorem SameScan.of_ne {fs : FileSystem} {o : Outcome × Workspace} {a : Response × Workspace}
    (ho : o.1.ending ≠ .exit 0) (ha : a.1.status ≠ 200) : SameScan fs o a :=
  ⟨iff_of_false ho ha, fun h ↦ absurd h ho, fun h ↦ absurd h ho⟩

theorem exact_scanJson (report : Report) (file : String) : (scanJson report file).Exact := by
  refine ⟨?_, trivial, trivial, trivial, trivial, trivial,
    Report.exactItems_map_str report.warnings, trivial, trivial⟩
  simp

theorem get?_sharedMembers (report : Report) (file : String) : ∀ key ∈ sharedMembers,
    ∃ x, report.toJson.get? key = some x ∧ (scanJson report file).get? key = some x := by
  simp [sharedMembers, Report.toJson, scanJson, Json.get?, Json.lookup]

/-! ### Two scans -/

variable {a : Analyzer}

theorem ending_scan_ne (hne : path ≠ "")
    (h : ∀ a, Analyzer.ofSettings (withReportDir c.settings dir) = .ok a →
      ∃ e, (a.run (some path) w).1 = .error e) :
    (Console.scan c (some path) dir .json w).1.ending ≠ .exit 0 := by
  rw [Console.scan, Option.getD_some, if_neg hne]
  cases ha : Analyzer.ofSettings (withReportDir c.settings dir) with
  | error e => simp
  | ok a =>
    obtain ⟨e, he⟩ := h a ha
    rcases hrun : a.run (some path) w with ⟨result, events, w₁⟩
    rw [hrun] at he
    cases he
    cases e with
    | failure f =>
      have hcode : f.kind.exitCode ≠ 0 := by cases f.kind <;> decide
      simpa [hrun] using hcode
    | rejected | path | text | matching | level => simp [hrun]

theorem status_scan_ne (hne : path ≠ "") (hresolve : resolveContract s w.files path = .ok place)
    (h : ∀ a, Analyzer.ofSettings s = .ok a →
      ∃ e, (a.run (some (pathOf place).text) w).1 = .error e) :
    (answerOf (scan s (some path) w).1).status ≠ 200 := by
  rw [scan, Option.getD_some]
  split
  · next hempty => exact absurd rfl hne
  · simp only [hresolve]
    cases ha : Analyzer.ofSettings s with
    | error e => exact status_faultAnswer_ne e
    | ok a =>
      obtain ⟨e, he⟩ := h a ha
      rcases hrun : a.run (some (pathOf place).text) w with ⟨result, events, w₁⟩
      rw [hrun] at he
      cases he
      simp only [hrun]
      exact status_faultAnswer_ne e

theorem consoleScan_of_run {found : Analysis} {saved : Path} {events : List Event} (hne : path ≠ "")
    (ha : Analyzer.ofSettings (withReportDir c.settings dir) = .ok a)
    (h : a.run (some path) w = (.ok (found, saved), events, w')) :
    ∃ log, Console.scan c (some path) dir .json w
      = ({ stdout := found.report.text ++ "\n", stderr := log }, w') := by
  rw [Console.scan, Option.getD_some, if_neg hne, ha]
  simp only [h]
  exact ⟨_, rfl⟩

theorem scan_of_run {found : Analysis} {saved : Path} {events : List Event} (hne : path ≠ "")
    (hresolve : resolveContract s w.files path = .ok place) (ha : Analyzer.ofSettings s = .ok a)
    (h : a.run (some (pathOf place).text) w = (.ok (found, saved), events, w')) :
    scan s (some path) w = (.ok (scanJson found.report saved.name), w') := by
  rw [scan, Option.getD_some]
  split
  · next hempty => exact absurd rfl hne
  · simp only [hresolve, ha, h]

theorem sameScan (h : CanonicalBelow s w.files path place)
    (hanalyzer : Analyzer.ofSettings (withReportDir c.settings dir) = Analyzer.ofSettings s)
    (v : Workspace) (shown : String) :
    SameScan w.files
      ((Console.scan c (some path) dir .json w).1.after shown,
        (Console.scan c (some path) dir .json w).2)
      (withOrigin r (answerOf (scan s (some path) (w.amid v)).1),
        (scan s (some path) (w.amid v)).2) := by
  have hne := ne_empty_of_ofString h.reads
  have hresolve : resolveContract s (w.amid v).files path = .ok place := h.resolveContract
  cases ha : Analyzer.ofSettings s with
  | error e =>
    have hending : (Console.scan c (some path) dir .json w).1.ending ≠ .exit 0 :=
      ending_scan_ne hne (by simp [hanalyzer, ha])
    have hstatus : (answerOf (scan s (some path) (w.amid v)).1).status ≠ 200 :=
      status_scan_ne hne hresolve (by simp [ha])
    exact .of_ne hending (by simpa using hstatus)
  | ok a =>
    rw [ha] at hanalyzer
    rcases a.run_amid (loadSource_iff h.reads h.ofString_text v) with
      ⟨found, saved, events, events', w₁, hrun, hrun'⟩ | ⟨e, e', hrun, hrun'⟩
    · obtain ⟨log, hscan⟩ := consoleScan_of_run hne hanalyzer hrun
      obtain ⟨more, hwrite⟩ := a.exists_write hrun
      rw [hscan, scan_of_run hne hresolve ha hrun']
      refine ⟨by simp [Outcome.after, answerOf, jsonAnswer], fun _ ↦ rfl, fun _ ↦ ?_⟩
      exact ⟨saved, found.report.text, _, _, _, newFile_of_write hwrite, rfl, body_withOrigin _ _,
        parse?_printed found.report, Json.parse?_render .wire (exact_scanJson _ saved.name),
        by simp [scanJson, Json.get?, Json.lookup], get?_sharedMembers found.report saved.name⟩
    · have hending : (Console.scan c (some path) dir .json w).1.ending ≠ .exit 0 :=
        ending_scan_ne hne (by simp [hanalyzer, hrun])
      have hstatus : (answerOf (scan s (some path) (w.amid v)).1).status ≠ 200 :=
        status_scan_ne hne hresolve (by simp [ha, hrun'])
      exact .of_ne hending (by simpa using hstatus)

end CanonicalBelow

/-! ## Main statement -/

/-- **The console, the service and the disk agree.** A command line and a request meet the same
files at the same time, with the same tokens to come. About the latest report and about all reports
they tell the same if both look into the same directory for the same suffix. And a contract under
its canonical path below the root is scanned in the same way if both analyze alike: what the console
prints is what both have saved. -/
theorem console_service_disk_agree {w w' : Workspace} (hw : w.Alike w') :
    (∀ args c dir s r, Invokes args w c (.report .latest dir) → r.Gets s .latestReport →
      storeFor c dir = .ofSettings s → SameLatest (Console.run args w).1 (handle s r w').1) ∧
    (∀ args c dir s r, Invokes args w c (.summary dir) → r.Gets s .riskSummary →
      storeFor c dir = .ofSettings s → SameSummary (Console.run args w).1 (handle s r w').1) ∧
    ∀ args c dir s r path place, Invokes args w c (.scan (some path) dir .json) →
      r.ScansFor s (some path) →
      Analyzer.ofSettings (withReportDir c.settings dir) = Analyzer.ofSettings s →
      CanonicalBelow s w.files path place →
      SameScan w.files (Console.run args w) (handle s r w') := by
  have halike := hw.of_settings
  refine ⟨fun args c dir s r hargs hr hstore ↦ ?_, fun args c dir s r hargs hr hstore ↦ ?_,
    fun args c dir s r path place hargs hr hanalyzer hbelow ↦ ?_⟩
  · obtain ⟨shown, hrun⟩ := Console.run_of_invokes hargs
    rw [hrun, handle_get hr, answer, halike.files]
    exact sameLatest hstore shown
  · obtain ⟨shown, hrun⟩ := Console.run_of_invokes hargs
    rw [hrun, handle_get hr, answer, halike.files]
    exact sameSummary hstore shown
  · obtain ⟨shown, hrun⟩ := Console.run_of_invokes hargs
    rw [hrun, handle_scan hr, halike.eq_amid, ← w.alike_settings.files]
    rw [← w.alike_settings.files] at hbelow
    exact sameScan hbelow hanalyzer w' shown

/-- A contract, and a report that was saved before. -/
def contractAndReport (contract report : List UInt8) : FileSystem where
  entries := [(["c"], .directory), (["c", "A.sol"], .file contract), (["r"], .directory),
    (["r", "1-analysis.json"], .file report)]
  current := []

/-- Where contracts and reports are. -/
def rootAndReports : Settings := { contractsRoot := "/c", reportDir := "/r" }

section ContractAndReport

variable (contract bytes : List UInt8) (report : Report)

theorem list_contractAndReport :
    Store.list (.ofSettings rootAndReports) (contractAndReport contract bytes)
      = .ok [.ofString "/r/1-analysis.json"] := by
  cbv

theorem loadReadable_contractAndReport :
    Store.loadReadable (contractAndReport contract (Text.encode report.text))
      (.ofString "/r/1-analysis.json") = (.ok (some report), []) := by
  have hstat (bytes : List UInt8) :
      (contractAndReport contract bytes).stat (.ofString "/r/1-analysis.json")
        = .ok (.file bytes) := by cbv
  rw [Store.loadReadable, Store.load_of_stat (hstat _)]

theorem latest_contractAndReport :
    (Store.latest (.ofSettings rootAndReports)
      (contractAndReport contract (Text.encode report.text))).1 = .ok (some report) := by
  rw [Store.latest, list_contractAndReport]
  dsimp only
  rw [List.reverse_singleton, Store.firstReadable_cons, loadReadable_contractAndReport]

theorem summary_contractAndReport :
    (Store.summary (.ofSettings rootAndReports)
      (contractAndReport contract (Text.encode report.text))).1 = .ok ⟨[.ofReport report]⟩ := by
  rw [Store.summary, list_contractAndReport]
  dsimp only
  rw [Store.allReadable_cons, loadReadable_contractAndReport]
  rfl

theorem canonicalBelow_contractAndReport :
    CanonicalBelow rootAndReports (contractAndReport contract bytes) "/c/A.sol" ["c", "A.sol"] where
  grounded :=
    { current := FileSystem.firm_nil
      targets := by
        intro q target h
        have hmem := FileSystem.mem_entries_of_linkAt h
        simp [contractAndReport] at hmem
      near := by
        intro q target h
        have hmem := FileSystem.mem_entries_of_linkAt h
        simp [contractAndReport] at hmem }
  root := by
    have hroot : Path.ofString rootAndReports.contractsRoot = ⟨"/", ["c"]⟩ := by cbv
    exact ⟨["c"], hroot ▸ ⟨_, .step rfl (.nil _)⟩, by decide⟩
  canonical := ⟨_, .step rfl (.step rfl (.nil _))⟩
  reads := by cbv
  null_notMem := by decide
  null_notMem_root := by decide

theorem stat_contractAndReport :
    (contractAndReport contract bytes).stat (pathOf ["c", "A.sol"]) = .ok (.file contract) := by
  cbv

/-- There is room for another report. -/
theorem write_contractAndReport (w : Workspace)
    (hfiles : w.files = contractAndReport contract bytes) (htoken : (Store.draw w).1 = 1) :
    ∃ more w', Store.write (.ofSettings rootAndReports) report w
      = (.ok (.ofString "/r/0000000000001-analysis.json"), more, w') := by
  have hmake : w.files.makeDirectories (.ofString "/r")
      = (.ok (), contractAndReport contract bytes) := by
    rw [hfiles]
    exact FileSystem.makeDirectories_of_stat (by cbv)
  have hpath : Store.reportPath (.ofSettings rootAndReports) (Store.draw w).1
      = .ofString "/r/0000000000001-analysis.json" := by
    rw [htoken]
    cbv
  have hready : Store.Ready (.ofSettings rootAndReports) w (contractAndReport contract bytes)
      (.ofString "/r/.00000000.tmp") ["r", ".00000000.tmp"]
      ["r", "0000000000001-analysis.json"] := by
    refine ⟨by cbv, by cbv, by cbv, ?_, by cbv, by decide⟩
    rw [hpath]
    cbv
  have hwrite := Store.write_of_ready (r := report) hmake hready
  rw [hpath] at hwrite
  exact ⟨_, _, hwrite⟩

end ContractAndReport

theorem gets_latestReport (s : Settings) :
    Request.Gets { path := "/reports/latest" } s .latestReport := by
  have hpath : unquote "/reports/latest" = "/reports/latest" := by cbv
  exact ⟨rfl, by simp [hpath, routeOf, routes]⟩

theorem gets_riskSummary (s : Settings) :
    Request.Gets { path := "/risk-summary" } s .riskSummary := by
  have hpath : unquote "/risk-summary" = "/risk-summary" := by cbv
  exact ⟨rfl, by simp [hpath, routeOf, routes]⟩

/-- A workspace with a contract and a report. -/
def bench : Workspace where
  files := contractAndReport (Text.encode Solidity.keyHolder) (Text.encode Store.motley.text)
  clock := 5
  kept := some rootAndReports

theorem invokes_bench {args : List String} {command : Console.Command} {setup : Log.Setup}
    (hsetup : Log.setup rootAndReports.appEnv (Console.levelName rootAndReports false) = .ok setup)
    (h : (Console.readArguments args).toOption = some { command := some command }) :
    Invokes args bench ⟨rootAndReports, setup, false⟩ command := by
  cases hread : Console.readArguments args with
  | error stop =>
    rw [hread] at h
    cases h
  | ok a =>
    rw [hread] at h
    cases h
    exact ⟨⟨_, hread, rfl, rfl, rfl⟩, rfl, hsetup⟩

/-- The contract on the bench is scanned. -/
theorem run_bench : ∃ a, Analyzer.ofSettings rootAndReports = .ok a ∧
    ∃ events w', a.run (some "/c/A.sol") { bench with kept := none }
      = (.ok (Analyzer.keyAnalysis, .ofString "/r/0000000000001-analysis.json"), events, w') := by
  obtain ⟨a, ha, hstore, hanalyze⟩ :=
    Analyzer.exists_keyAnalyzer (show rootAndReports.byteTypes = _ from rfl) rfl
  have hbelow := canonicalBelow_contractAndReport (Text.encode Solidity.keyHolder)
    (Text.encode Store.motley.text)
  have hload := Analyzer.loadSource_keyHolder (w := { bench with kept := none })
    ((looksUp_iff hbelow.reads).mpr rfl) (stat_contractAndReport _ _)
  obtain ⟨more, w', hwrite⟩ := write_contractAndReport _ _ Analyzer.keyReport
    { bench with kept := none } rfl (by decide)
  obtain ⟨events, hrun⟩ := Analyzer.run_of_write (hanalyze _ _ _ hload rfl) hstore hwrite
  exact ⟨a, ha, events, w', hrun⟩

/-- The service has the same files, and settings of its own that name the same directories. -/
theorem agree_on_bench : ∃ c : Context,
    Invokes ["report", "latest"] bench c (.report .latest none) ∧
    Invokes ["summary"] bench c (.summary none) ∧
    Invokes ["scan", "/c/A.sol", "--format", "json"] bench c (.scan (some "/c/A.sol") none .json) ∧
    CanonicalBelow rootAndReports bench.files "/c/A.sol" ["c", "A.sol"] ∧
    (Console.run ["report", "latest"] bench).1.ending = .exit 0 ∧
    SameLatest (Console.run ["report", "latest"] bench).1
      (handle rootAndReports { path := "/reports/latest" } { bench with kept := none }).1 ∧
    (Console.run ["summary"] bench).1.ending = .exit 0 ∧
    SameSummary (Console.run ["summary"] bench).1
      (handle rootAndReports { path := "/risk-summary" } { bench with kept := none }).1 ∧
    (Console.run ["scan", "/c/A.sol", "--format", "json"] bench).1.ending = .exit 0 ∧
    SameScan bench.files (Console.run ["scan", "/c/A.sol", "--format", "json"] bench)
      (handle rootAndReports { path := "/scan", query := "file=/c/A.sol" }
        { bench with kept := none }) := by
  obtain ⟨setup, hsetup⟩ : ∃ setup, Log.setup rootAndReports.appEnv
      (Console.levelName rootAndReports false) = .ok setup := ⟨_, rfl⟩
  have hlatest : Invokes ["report", "latest"] bench ⟨rootAndReports, setup, false⟩
      (.report .latest none) := invokes_bench hsetup (by decide +kernel)
  have hsummary : Invokes ["summary"] bench ⟨rootAndReports, setup, false⟩ (.summary none) :=
    invokes_bench hsetup (by decide +kernel)
  have hscan : Invokes ["scan", "/c/A.sol", "--format", "json"] bench
      ⟨rootAndReports, setup, false⟩ (.scan (some "/c/A.sol") none .json) :=
    invokes_bench hsetup (by decide +kernel)
  have hquery : lastValue "file" (queryPairs "file=/c/A.sol") = some "/c/A.sol" := by cbv
  have hbelow : CanonicalBelow rootAndReports bench.files "/c/A.sol" ["c", "A.sol"] :=
    canonicalBelow_contractAndReport _ _
  have halike : bench.Alike { bench with kept := none } := ⟨rfl, rfl, rfl, rfl⟩
  obtain ⟨hsameLatest, hsameSummary, hsameScan⟩ := console_service_disk_agree halike
  have hsame := hsameLatest _ _ _ _ _ hlatest (gets_latestReport rootAndReports) rfl
  have hsame' := hsameSummary _ _ _ _ _ hsummary (gets_riskSummary rootAndReports) rfl
  have hscans : Request.ScansFor { path := "/scan", query := "file=/c/A.sol" } rootAndReports
      (some "/c/A.sol") := ⟨rfl, routeOf_scan _, hquery⟩
  have hsame'' := hsameScan _ _ _ _ _ _ _ hscan hscans rfl hbelow
  refine ⟨_, hlatest, hsummary, hscan, hbelow, hsame.found.mpr ?_, hsame, hsame'.found.mpr ?_,
    hsame', hsame''.found.mpr ?_, hsame''⟩
  · rw [handle_get (gets_latestReport rootAndReports), status_withOrigin, answer, latestReport,
      bench, latest_contractAndReport]
    rfl
  · rw [handle_get (gets_riskSummary rootAndReports), status_withOrigin, answer, riskSummary, bench,
      summary_contractAndReport]
    rfl
  · obtain ⟨a, ha, events, w', hrun⟩ := run_bench
    have htext : (pathOf ["c", "A.sol"]).text = "/c/A.sol" := by decide
    rw [← htext] at hrun
    have hresolve : resolveContract rootAndReports { bench with kept := none }.files "/c/A.sol"
        = .ok ["c", "A.sol"] := hbelow.resolveContract
    rw [handle_scan hscans, status_withOrigin, scan_of_run (by decide) hresolve ha hrun]
    rfl

end Web

end QuantumRisk

import Mathlib
import QuantumRisk.Proofs.Analysis.Clean
import QuantumRisk.Proofs.Store.Write

/-!
# A run saves a whole report or nothing

The stages of a run before the save do not touch the workspace, so all that has to be followed is
the write. If it succeeds the tree has one more file. If it fails there may be new directories, and
no file has come, gone or changed; this is so whatever the disk refuses, unless it refuses to let
the temporary file go. Then this is what the run tells, and what was there before is still there.
-/

namespace QuantumRisk.Analyzer

open FileSystem (MadeOnWay)
open Solidity (keyHolder)

variable {a : Analyzer} {path : Option String} {w w' : Workspace} {events : List Event}
  {disk : Disk}

/-- The tree has got one file at `p` in a directory, and directories on the way to it. -/
structure OneFileAdded (directory p : Path) (bytes : List UInt8) (fs fs' : FileSystem) : Prop where
  current : fs'.current = fs.current
  kept : ∀ q e, fs.entryAt q = some e → fs'.entryAt q = some e
  parent : p.parent = directory
  file : ∃ d, fs'.locate true directory = .ok d ∧ fs'.entryAt d = some .directory ∧
    fs'.locate true p = .ok (d ++ [p.name]) ∧
    fs.entryAt (d ++ [p.name]) = none ∧ fs'.entryAt (d ++ [p.name]) = some (.file bytes) ∧
    ∀ q e, q ≠ d ++ [p.name] → fs.entryAt q = none → fs'.entryAt q = some e →
      e = .directory ∧ ∃ b, Path.Ancestor b directory ∧ fs'.locate true b = .ok q

theorem oneFileAdded_of_write {s : Store} {r : Report} {p : Path} (hsuffix : '/' ∉ s.suffix.toList)
    (h : s.write r w disk = (.ok p, events, w')) :
    OneFileAdded s.directory p (Text.encode r.text) w.files w'.files := by
  obtain ⟨fs, q, hmake, hsaved⟩ := Store.write_ok h
  have hway : MadeOnWay s.directory w.files fs := by
    have := FileSystem.madeOnWay_makeDirectories s.directory w.files disk
    rwa [hmake] at this
  have hx : FileSystem.Extends fs w'.files := hsaved.extends
  obtain ⟨d, hd, hdir⟩ := FileSystem.stat_eq_ok_iff.mp (FileSystem.stat_of_makeDirectories hmake)
  have hplain := Store.plain_reportName hsuffix w'.lastToken
  have hname : p.name = Store.reportName w'.lastToken s.suffix := by
    rw [hsaved.path]
    exact Path.name_append s.directory hplain
  have hq : q = d ++ [p.name] := by rw [hname, hsaved.place hsuffix hd]
  subst hq
  refine ⟨hx.current.trans hway.grown.current, fun q e he ↦ hx.entry (hway.grown.entry he), ?_, d,
    hx.locate hd, hx.entry hdir, ?_, hway.grown.entryAt_eq_none hsaved.free, ?_, ?_⟩
  · rw [hsaved.path]
    exact Path.parent_append s.directory hplain
  · exact hx.locate (FileSystem.locate_follow hsaved.locate (by simp [hsaved.free]))
  · rw [hsaved.files]
    exact FileSystem.entryAt_put_self (by simp)
  · intro q e hne hnone hsome
    rw [hsaved.files, FileSystem.entryAt_put_of_ne hne] at hsome
    obtain ⟨he, b, hb, hbq⟩ := hway.added hnone hsome
    exact ⟨he, b, hb, hx.locate hbq⟩

/-! ## Saves that go well and saves that fail -/

/-- The settings with a given directory for reports. -/
def savingTo (directory : String) : Settings := { reportDir := directory }

/-- A workspace with a contract and an earlier report. -/
def desk (contract report : List UInt8) : Workspace where
  files := ⟨[(["A.sol"], .file contract), (["r"], .directory),
    (["r", "0000000000004-analysis.json"], .file report)], []⟩
  clock := 5000000

/-- The desk with the contract that has one key, and an earlier report on it. -/
def keyDesk : Workspace := desk (Text.encode keyHolder) (Text.encode keyReport.text)

def deskStore : Store := ⟨.ofString "r", Store.defaultSuffix⟩

/-- A disk on which there is room for three more bytes. -/
def fullDisk : Disk := ⟨fun _ _ ↦ none, fun _ _ ↦ some (3, .noSpace)⟩

/-- A disk that lets nothing go. -/
def clingingDisk : Disk where
  refuses change _ := if change = .remove then some .notPermitted else none
  stops _ _ := none

section Desk

variable (contract report : List UInt8)

theorem stat_desk :
    (desk contract report).files.stat (.ofString "A.sol") = .ok (.file contract) := by cbv

theorem looksUp_desk : (desk contract report).LooksUp (some "A.sol") (.ofString "A.sol") :=
  ⟨Workspace.not_unnamed_of_not_blank (by cbv), "A.sol", rfl, by cbv⟩

theorem ready_desk : deskStore.Ready (desk contract report) (desk contract report).files
    (.ofString "/r/.00000000.tmp") ["r", ".00000000.tmp"] ["r", "0000000000005-analysis.json"] :=
  ⟨by cbv, by cbv, by cbv, by cbv, by cbv, by decide⟩

theorem makeDirectories_desk (disk : Disk) :
    (desk contract report).files.makeDirectories deskStore.directory disk
      = (.ok (), (desk contract report).files) :=
  FileSystem.makeDirectories_of_stat (by cbv) disk

theorem reportPath_desk : deskStore.reportPath (Store.draw (desk contract report)).1
    = .ofString "r/0000000000005-analysis.json" := by cbv

theorem write_desk (r : Report) : ∃ more w', deskStore.write r (desk contract report)
    = (.ok (.ofString "r/0000000000005-analysis.json"), more, w') := by
  have hwrite := Store.write_of_ready (r := r) (makeDirectories_desk contract report .willing)
    (ready_desk contract report)
  rw [reportPath_desk] at hwrite
  exact ⟨_, _, hwrite⟩

theorem write_desk_full (r : Report) : deskStore.write r (desk contract report) fullDisk
    = (.error (.failure (.write "cannot write report to r: No space left on device" "r")), [],
      desk contract report) :=
  Store.write_of_stop (makeDirectories_desk contract report fullDisk) (ready_desk contract report)
    rfl rfl rfl

theorem write_desk_clinging (r : Report) :
    ∃ more w', deskStore.write r (desk contract report) clingingDisk
        = (.error (.path (.refused .notPermitted "/r/.00000000.tmp")), more, w') ∧
      w'.files.entryAt ["r", ".00000000.tmp"] = some (.file (Text.encode r.text)) ∧
      w'.files.entryAt ["r", "0000000000005-analysis.json"]
        = some (.file (Text.encode r.text)) := by
  have hready := ready_desk contract report
  have hmake := makeDirectories_desk contract report clingingDisk
  have hwrite := Store.write_of_keptBack (r := r) hmake hready rfl rfl rfl rfl
  refine ⟨_, _, hwrite, ?_, ?_⟩
  · rw [FileSystem.entryAt_put_of_ne hready.ne.symm]
    exact FileSystem.entryAt_put_self (by decide)
  · exact FileSystem.entryAt_put_self (by decide)

/-- The desk after the directory `a/../b` has been made. -/
def deskAside (contract report : List UInt8) : FileSystem where
  entries := (desk contract report).files.entries ++ [(["a"], .directory), (["b"], .directory)]
  current := []

def asideStore : Store := ⟨.ofString "a/../b", Store.defaultSuffix⟩

theorem write_desk_aside (r : Report) : ∃ p more w',
    asideStore.write r (desk contract report) = (.ok p, more, w') ∧
      w'.files.locate true (.ofString "a/../b") = .ok ["b"] ∧
      w'.files.entryAt ["a"] = some .directory := by
  have hmake : (desk contract report).files.makeDirectories asideStore.directory
      = (.ok (), deskAside contract report) := by cbv
  have hready : asideStore.Ready (desk contract report) (deskAside contract report)
      (.ofString "/b/.00000000.tmp") ["b", ".00000000.tmp"] ["b", "0000000000005-analysis.json"] :=
    ⟨by cbv, by cbv, by cbv, by cbv, by cbv, by decide⟩
  have hx := FileSystem.extends_put (e := .file (Text.encode r.text)) hready.free (by simp)
  refine ⟨_, _, _, Store.write_of_ready hmake hready, hx.locate ?_, hx.entry ?_⟩
  · cbv
  · cbv

end Desk

theorem exists_savingTo (directory : String) : ∃ a, ofSettings (savingTo directory) = .ok a ∧
    a.store = ⟨.ofString directory, Store.defaultSuffix⟩ ∧
    (a.analyze (some "A.sol") keyDesk).1 = .ok keyAnalysis := by
  have hbytes : (savingTo directory).byteTypes = "bytes32,bytes" := rfl
  obtain ⟨a, ha, hstore, hanalyze⟩ := exists_keyAnalyzer hbytes rfl
  exact ⟨a, ha, hstore, hanalyze _ _ _
    (loadSource_keyHolder (looksUp_desk _ _) (stat_desk _ _)) (by decide)⟩

/-! ## Main statement -/

/-- **All or nothing.** A run that succeeds adds one file, the report of the analysis. A run that
fails changes no file, and if it fails before the save it changes nothing at all. If the disk
refuses to let the temporary file go the run fails with this refusal; then files may have been
added, and those from before are as they were. -/
theorem run_all_or_nothing {settings : Settings} (ha : ofSettings settings = .ok a)
    (hsuffix : '/' ∉ settings.reportSuffix.toList) (path : Option String) (w : Workspace)
    (disk : Disk) :
    match a.run path w disk with
    | (.ok (found, p), _, w') =>
      (a.analyze path w).1 = .ok found ∧
        OneFileAdded (.ofString settings.reportDir) p (Text.encode found.report.text) w.files
          w'.files
    | (.error fault, _, w') =>
      ((∀ q bytes, w'.files.entryAt q = some (.file bytes) ↔
          w.files.entryAt q = some (.file bytes)) ∨
        Store.KeptBack disk fault ∧ ∀ q bytes, w.files.entryAt q = some (.file bytes) →
          w'.files.entryAt q = some (.file bytes)) ∧
        ∀ f, fault = .failure f → f.kind ∈ [.usage, .notFound, .parse] → w' = w := by
  rw [run]
  cases hanalyze : a.analyze path w with
  | mk result events =>
    cases result with
    | error fault =>
      -- before the save: the workspace is handed back
      exact ⟨.inl fun q bytes ↦ Iff.rfl, fun f hf hkind ↦ rfl⟩
    | ok found =>
      simp only
      cases hwrite : a.store.write found.report w disk with
      | mk result rest =>
        obtain ⟨more, w'⟩ := rest
        cases result with
        | error fault =>
          have hway := FileSystem.madeOnWay_makeDirectories a.store.directory w.files disk
          obtain ⟨hfiles, hfault⟩ := Store.write_error hwrite
          refine ⟨?_, fun f hf hkind ↦ ?_⟩
          · rcases hfiles with hsame | ⟨hkept, hx⟩
            · left
              intro q bytes
              rw [hsame]
              exact hway.file_iff
            · exact .inr ⟨hkept, fun q bytes h ↦ hx.entry (hway.file_iff.mpr h)⟩
          · rw [hfault f hf] at hkind
            simp at hkind
        | ok p =>
          refine ⟨rfl, ?_⟩
          rw [(ofSettings_ok ha).2] at hwrite
          exact oneFileAdded_of_write hsuffix hwrite

/-- A run at the desk saves its report beside the earlier one. On the full disk the save is refused
and no file changes. -/
theorem run_all_or_nothing_keyDesk :
    ∃ a, ofSettings (savingTo "r") = .ok a ∧ '/' ∉ (savingTo "r").reportSuffix.toList ∧
      (∃ events w', a.run (some "A.sol") keyDesk
          = (.ok (keyAnalysis, .ofString "r/0000000000005-analysis.json"), events, w') ∧
        OneFileAdded (.ofString "r") (.ofString "r/0000000000005-analysis.json")
          (Text.encode keyReport.text) keyDesk.files w'.files) ∧
      ∃ events w', a.run (some "A.sol") keyDesk fullDisk
          = (.error (.failure (.write "cannot write report to r: No space left on device" "r")),
            events, w') ∧
        ∀ q bytes, w'.files.entryAt q = some (.file bytes) ↔
          keyDesk.files.entryAt q = some (.file bytes) := by
  have hsuffix : '/' ∉ (savingTo "r").reportSuffix.toList := by decide
  obtain ⟨a, ha, hstore, hanalyze⟩ := exists_savingTo "r"
  refine ⟨a, ha, hsuffix, ?_, ?_⟩
  · obtain ⟨more, w', hwrite⟩ := write_desk (Text.encode keyHolder) (Text.encode keyReport.text)
      keyReport
    obtain ⟨events, hrun⟩ := run_of_write hanalyze hstore hwrite
    have h := run_all_or_nothing ha hsuffix (some "A.sol") keyDesk .willing
    rw [hrun] at h
    exact ⟨events, w', hrun, h.2⟩
  · have hwrite := write_desk_full (Text.encode keyHolder) (Text.encode keyReport.text) keyReport
    obtain ⟨events, hrun⟩ := run_of_write hanalyze hstore hwrite
    have h := run_all_or_nothing ha hsuffix (some "A.sol") keyDesk fullDisk
    rw [hrun] at h
    rcases h.1 with hfiles | ⟨⟨t, reason, hrefuses, -⟩, -⟩
    · exact ⟨events, _, hrun, hfiles⟩
    · cases hrefuses

/-- **More can be left behind.** If the disk lets nothing go a failed run leaves the report and the
temporary file. And where the directory for reports is `a/../b`, which is the directory `b`, a run
makes the directory `a` as well. -/
theorem run_leaves_more :
    (∃ a events w', ofSettings (savingTo "r") = .ok a ∧ a.run (some "A.sol") keyDesk clingingDisk
          = (.error (.path (.refused .notPermitted "/r/.00000000.tmp")), events, w') ∧
        ∀ name ∈ [".00000000.tmp", "0000000000005-analysis.json"],
          keyDesk.files.entryAt ["r", name] = none ∧
            w'.files.entryAt ["r", name] = some (.file (Text.encode keyReport.text))) ∧
      ∃ a p events w', ofSettings (savingTo "a/../b") = .ok a ∧
        a.run (some "A.sol") keyDesk = (.ok (keyAnalysis, p), events, w') ∧
        w'.files.locate true (.ofString "a/../b") = .ok ["b"] ∧
        keyDesk.files.entryAt ["a"] = none ∧ w'.files.entryAt ["a"] = some .directory := by
  constructor
  · obtain ⟨a, ha, hstore, hanalyze⟩ := exists_savingTo "r"
    obtain ⟨more, w', hwrite, htemporary, hreport⟩ :=
      write_desk_clinging (Text.encode keyHolder) (Text.encode keyReport.text) keyReport
    obtain ⟨events, hrun⟩ := run_of_write hanalyze hstore hwrite
    have hready := ready_desk (Text.encode keyHolder) (Text.encode keyReport.text)
    refine ⟨a, events, w', ha, hrun, ?_⟩
    simp only [List.forall_mem_cons]
    exact ⟨⟨hready.temporaryFree, htemporary⟩, ⟨hready.free, hreport⟩,
      fun _ h ↦ absurd h List.not_mem_nil⟩
  · obtain ⟨a, ha, hstore, hanalyze⟩ := exists_savingTo "a/../b"
    obtain ⟨p, more, w', hwrite, hlocate, hdirectory⟩ :=
      write_desk_aside (Text.encode keyHolder) (Text.encode keyReport.text) keyReport
    obtain ⟨events, hrun⟩ := run_of_write hanalyze hstore hwrite
    exact ⟨a, p, events, w', ha, hrun, hlocate, rfl, hdirectory⟩

end QuantumRisk.Analyzer

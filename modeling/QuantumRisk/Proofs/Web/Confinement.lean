import Mathlib
import QuantumRisk.Proofs.FileSystem.Canonical
import QuantumRisk.Proofs.Store.Hidden
import QuantumRisk.Web.Service

/-!
# Scans stay below the root

A scan is asked for by a name below the root of contracts. The name may hold dots and slashes of any
kind, and may go up and come down again. What counts is the canonical place: the contract is found
exactly if the canonical place of the root is above that of the name, and anything else is refused
without a trace.

Nor does a scan tell anything of what it refuses to read. In a tree without links, the bytes of
files outside the root make no difference to the answer or to the report that is saved.

All this is said of names that have a canonical place, in trees in which no link lies too deep to be
seen. A link that leads back to itself has no canonical place, and then the service goes by the
names behind it alone: it gives up on the request, or it takes a link for a contract without asking
where it leads (`scan_through_loop`).
-/

namespace QuantumRisk.Web

open FileSystem (pathOf)

variable {s : Settings} {r : Request} {w w' : Workspace} {fs fs' : FileSystem} {file : String}
  {root place : Place}

/-! ## Requests for a scan -/

/-- A request to scan a file, or none if no file is named. -/
structure Request.ScansFor (r : Request) (s : Settings) (file : Option String) : Prop where
  method : r.method = "GET"
  route : routeOf s (unquote r.path) = some .scan
  file : lastValue "file" (queryPairs r.query) = file

/-- The answer with the headers for other origins, unless it is one that nobody expected. -/
def withOrigin (r : Request) (a : Response) : Response :=
  if a.fault.isSome then a else { a with headers := a.headers ++ originHeaders r }

theorem handle_scan {file : Option String} (h : r.ScansFor s file) (w : Workspace) :
    handle s r w = (withOrigin r (answerOf (scan s file w).1), (scan s file w).2) := by
  have hdispatch : dispatch s r w = (answerOf (scan s file w).1, (scan s file w).2) := by
    simp only [dispatch, h.route, h.method, answer, h.file]
    rfl
  rw [handle, hdispatch, h.method, withOrigin]
  split
  · next hoptions _ _ => exact absurd hoptions (by decide)
  · dsimp only
    cases (answerOf (scan s file w).1).fault <;> rfl

/-- The answer to a name that is not below the root. -/
def outsideAnswer (r : Request) (file : String) : Response where
  status := 404
  headers := ("content-type", "application/json") :: originHeaders r
  body := some ((Json.obj [("error", .obj [("code", .str "NOT_FOUND"),
    ("message", .str ("outside the contracts root: " ++ file)),
    ("details", .obj [("path", .str file)])])]).render .wire)

theorem scan_of_ne_empty (h : file ≠ "") {e : Fault}
    (he : resolveContract s w.files file = .error e) : scan s (some file) w = (.error e, w) := by
  rw [scan, Option.getD_some]
  split
  · next hempty => exact absurd rfl h
  · simp only [he]

/-! ## Names below the root -/

theorem null_notMem_text_ofString {t : String} (h : '\x00' ∉ t.toList) :
    '\x00' ∉ (Path.ofString t).text.toList := fun hnull ↦
  h (Path.null_mem_of_ofString (Path.hasNull_of_mem_text hnull))

theorem usable_of_mem_append (hroot : fs.Firm root) (hfile : '\x00' ∉ file.toList) :
    ∀ name ∈ ((pathOf root).append file).parts, FileSystem.Usable name := by
  intro name hname
  rw [Path.append, Path.join] at hname
  split at hname
  · exact FileSystem.usable_of_mem_ofString hfile hname
  · rcases List.mem_append.mp hname with hname | hname
    · exact hroot.usable name hname
    · exact FileSystem.usable_of_mem_ofString hfile hname

theorem null_notMem_text_append (hroot : fs.Firm root) (hfile : '\x00' ∉ file.toList) :
    '\x00' ∉ ((pathOf root).append file).text.toList := by
  intro hnull
  rcases (Path.hasNull_of_mem_text hnull).of_append with (hanchor | ⟨name, hname, hnull⟩) | hnull
  · simp [pathOf] at hanchor
  · exact (hroot.usable name hname).null_notMem hnull
  · exact hfile hnull

/-- A name is resolved to its canonical place, if that is below the root. -/
theorem resolveContract_of_isCanonical (hg : fs.Grounded)
    (hnullRoot : '\x00' ∉ s.contractsRoot.toList) (hnull : '\x00' ∉ file.toList)
    (hroot : fs.IsCanonical (.ofString s.contractsRoot) root)
    (hplace : fs.IsCanonical ((pathOf root).append file) place) :
    resolveContract s fs file = if root <+: place then .ok place
      else .error (.failure (.notFound file "outside the contracts root")) := by
  obtain ⟨hrealRoot, hfirm⟩ := FileSystem.realPlace_of_isCanonical hg
    (fun name hname ↦ FileSystem.usable_of_mem_ofString hnullRoot hname)
    (null_notMem_text_ofString hnullRoot) hroot
  obtain ⟨hreal, -⟩ := FileSystem.realPlace_of_isCanonical hg (usable_of_mem_append hfirm hnull)
    (null_notMem_text_append hfirm hnull) hplace
  rw [resolveContract, hrealRoot]
  simp only [hreal, List.isPrefixOf_iff_prefix]

/-! ## Bytes outside the root -/

theorem noLinks_of_sameBut {hidden : Place → Prop} (h : fs.SameBut hidden fs')
    (hlinks : fs.NoLinks) : fs'.NoLinks := by
  intro q
  have hq := hlinks q
  rw [FileSystem.linkAt] at hq ⊢
  rcases h.entry q with heq | ⟨-, b, b', hb, hb'⟩
  · rwa [heq]
  · rw [hb']

theorem resolveContract_sameBut {hidden : Place → Prop} (h : fs.SameBut hidden fs')
    (hlinks : fs.NoLinks) (s : Settings) (file : String) :
    resolveContract s fs' file = resolveContract s fs file := by
  have hreal (p : Path) : fs'.realPlace p = fs.realPlace p := by
    rw [(noLinks_of_sameBut h hlinks).realPlace, hlinks.realPlace, FileSystem.lexical,
      FileSystem.lexical, h.current]
  rw [resolveContract, resolveContract, hreal]
  simp only [hreal]

theorem proper_append_pathOf (hroot : ∀ name ∈ root, Path.Plain name) (file : String) :
    ((pathOf root).append file).Proper := by
  intro name hname
  rw [Path.append, Path.join] at hname
  split at hname
  · exact Path.proper_ofString file name hname
  · rcases List.mem_append.mp hname with hname | hname
    · exact ⟨(hroot name hname).ne_empty, (hroot name hname).slash_notMem⟩
    · exact Path.proper_ofString file name hname

/-- What a scan reads is below the root, under plain names. -/
theorem below_of_resolveContract (hlinks : fs.NoLinks)
    (hcurrent : ∀ name ∈ fs.current, Path.Plain name)
    (hroot : fs.IsCanonical (.ofString s.contractsRoot) root)
    (h : resolveContract s fs file = .ok place) :
    root <+: place ∧ ∀ name ∈ place, Path.Plain name := by
  obtain rfl := hlinks.isCanonical_iff.mp hroot
  have hplainRoot := FileSystem.plain_lexical hcurrent (Path.proper_ofString s.contractsRoot)
  rw [resolveContract, hlinks.realPlace] at h
  split at h
  · cases h
  next root' hrealRoot =>
  split at hrealRoot
  · cases hrealRoot
  cases hrealRoot
  rw [hlinks.realPlace] at h
  split at h
  · cases h
  next place' hreal =>
  split at hreal
  · cases hreal
  cases hreal
  split at h
  · next hbelow =>
    cases h
    exact ⟨List.isPrefixOf_iff_prefix.mp hbelow,
      FileSystem.plain_lexical hcurrent (proper_append_pathOf hplainRoot file)⟩
  · cases h

theorem expandHome_ofString_pathOf (w : Workspace) (hplace : ∀ name ∈ place, Path.Plain name) :
    w.expandHome (.ofString (pathOf place).text) = .ok (pathOf place) := by
  rw [pathOf, Path.ofString_text hplace]
  rfl

/-- A contract that is not hidden is loaded in the same way. -/
theorem loadSource_sameBut {hidden : Place → Prop} (h : w.SameBut hidden w')
    (hlinks : w.files.NoLinks) (hplace : ∀ name ∈ place, Path.Plain name)
    (hshown : ¬ hidden place) :
    w'.loadSource (some (pathOf place).text) = w.loadSource (some (pathOf place).text) := by
  have hread := h.files.readText (p := pathOf place)
    fun q hq ↦ hlinks.locate_pathOf hplace hq ▸ hshown
  have hexists : w'.files.exists? (pathOf place) = w.files.exists? (pathOf place) :=
    h.files.probe (fun _ _ ↦ rfl) _
  have hfile : w'.files.isFile (pathOf place) = w.files.isFile (pathOf place) :=
    h.files.probe (fun _ _ ↦ rfl) _
  rw [Workspace.loadSource, Workspace.loadSource]
  simp only [expandHome_ofString_pathOf _ hplace, hexists, hfile, hread]

theorem run_sameBut {hidden : Place → Prop} {a : Analyzer} {path : Option String}
    (h : w.SameBut hidden w') (hload : w'.loadSource path = w.loadSource path) :
    (a.run path w').1 = (a.run path w).1 ∧
      (a.run path w).2.2.SameBut hidden (a.run path w').2.2 := by
  have hanalyze : a.analyze path w' = a.analyze path w := by
    rw [Analyzer.analyze, Analyzer.analyze, hload]
  rw [Analyzer.run, Analyzer.run, hanalyze]
  rcases a.analyze path w with ⟨result, events⟩
  cases result with
  | error e => exact ⟨rfl, h⟩
  | ok found =>
    have hwrite := Store.write_sameBut (s := a.store) h found.report
    dsimp only
    generalize a.store.write found.report w = written,
      a.store.write found.report w' = written' at hwrite
    obtain ⟨result, more, w₁⟩ := written
    obtain ⟨result', more', w₁'⟩ := written'
    obtain ⟨hresult, hevents, hw₁⟩ := hwrite
    obtain rfl : result' = result := hresult
    cases result' with
    | error e => exact ⟨rfl, hw₁⟩
    | ok saved => exact ⟨rfl, hw₁⟩

/-- **A scan does not depend on bytes outside the root.** -/
theorem scan_sameBut {hidden : Place → Prop} (h : w.SameBut hidden w') (hlinks : w.files.NoLinks)
    (hcurrent : ∀ name ∈ w.files.current, Path.Plain name)
    (hroot : w.files.IsCanonical (.ofString s.contractsRoot) root)
    (hhidden : ∀ q, hidden q → ¬ root <+: q) (file : Option String) :
    (scan s file w').1 = (scan s file w).1 ∧
      (scan s file w).2.SameBut hidden (scan s file w').2 := by
  rw [scan, scan]
  split
  · exact ⟨rfl, h⟩
  · rw [resolveContract_sameBut h.files hlinks]
    cases hresolve : resolveContract s w.files (file.getD "") with
    | error e => exact ⟨rfl, h⟩
    | ok place =>
      dsimp only
      cases Analyzer.ofSettings s with
      | error e => exact ⟨rfl, h⟩
      | ok a =>
        obtain ⟨hbelow, hplain⟩ := below_of_resolveContract hlinks hcurrent hroot hresolve
        have hload := loadSource_sameBut h hlinks hplain fun hq ↦ hhidden place hq hbelow
        obtain ⟨hresult, hrun⟩ := run_sameBut (a := a) h hload
        dsimp only
        generalize a.run (some (pathOf place).text) w = ran,
          a.run (some (pathOf place).text) w' = ran' at hresult hrun
        obtain ⟨result, events, w₁⟩ := ran
        obtain ⟨result', events', w₁'⟩ := ran'
        obtain rfl : result' = result := hresult
        cases result' with
        | error e => exact ⟨rfl, hrun⟩
        | ok found => exact ⟨rfl, hrun⟩

/-! ## Main statement -/

theorem withOrigin_outside (r : Request) (file : String) :
    withOrigin r (answerOf (.error (.failure (.notFound file "outside the contracts root"))))
      = outsideAnswer r file := rfl

theorem plain_of_firm (h : fs.Firm place) : ∀ name ∈ place, Path.Plain name := fun name hname ↦
  ⟨(h.usable name hname).ne_empty, (h.dotless name hname).1, (h.dotless name hname).2,
    (h.usable name hname).slash_notMem⟩

theorem resolveContract_error {e : Fault} (h : resolveContract s fs file = .error e) :
    (∃ fault, e = .path fault) ∨ e = .failure (.notFound file "outside the contracts root") := by
  rw [resolveContract] at h
  split at h
  · cases h
    exact .inl ⟨_, rfl⟩
  split at h
  · cases h
    exact .inl ⟨_, rfl⟩
  split at h
  · cases h
  · cases h
    exact .inr rfl

/-- **Scans are confined to the root.** The root has a canonical place unless it comes to a link
that leads back to itself, and so has every file that is asked for; the file is found, at that
place, exactly if the root is above it, and otherwise the answer is that it is outside and nothing
changes. A file that is not found leaves the workspace as it was in any case. And if there are no
links at all, two workspaces that differ only in bytes of files outside the root get the same
answer, and what is new in them afterwards is the same. -/
theorem scan_confined (s : Settings) (r : Request) (w : Workspace) (hg : w.files.Grounded) :
    (∀ file, r.ScansFor s (some file) → file ≠ "" → '\x00' ∉ file.toList →
      '\x00' ∉ s.contractsRoot.toList → ¬ w.files.MeetsLoop (.ofString s.contractsRoot) →
      ∃ root, w.files.IsCanonical (.ofString s.contractsRoot) root ∧
        (¬ w.files.MeetsLoop ((pathOf root).append file) →
          ∃ place, w.files.IsCanonical ((pathOf root).append file) place ∧
            (∀ p, resolveContract s w.files file = .ok p ↔ p = place ∧ root <+: place) ∧
            (¬ root <+: place → handle s r w = (outsideAnswer r file, w)))) ∧
    (∀ file e, r.ScansFor s (some file) → file ≠ "" → resolveContract s w.files file = .error e →
      (handle s r w).2 = w ∧
        ((handle s r w).1 = outsideAnswer r file ∨ (handle s r w).1.status = 500)) ∧
    ∀ (file : Option String) (root : Place) (w' : Workspace), r.ScansFor s file →
      w.files.NoLinks → w.files.IsCanonical (.ofString s.contractsRoot) root →
      w.SameBut (fun q ↦ ¬ root <+: q) w' →
      (handle s r w').1 = (handle s r w).1 ∧
        (∃ fs, (handle s r w').2 = { (handle s r w).2 with files := fs }) ∧
        ∀ q, w'.files.entryAt q = w.files.entryAt q →
          (handle s r w').2.files.entryAt q = (handle s r w).2.files.entryAt q := by
  refine ⟨fun file hr hne hnull hnullRoot hloop ↦ ?_, fun file e hr hne he ↦ ?_,
    fun file root w' hr hlinks hroot hsame ↦ ?_⟩
  · obtain ⟨root, hroot⟩ := FileSystem.exists_isCanonical_iff.mpr hloop
    refine ⟨root, hroot, fun hloop ↦ ?_⟩
    obtain ⟨place, hplace⟩ := FileSystem.exists_isCanonical_iff.mpr hloop
    have hresolve := resolveContract_of_isCanonical hg hnullRoot hnull hroot hplace
    refine ⟨place, hplace, fun p ↦ ?_, fun hout ↦ ?_⟩
    · rw [hresolve]
      split
      · next hbelow => simp [hbelow, eq_comm]
      · next hbelow => simp [hbelow]
    · rw [if_neg hout] at hresolve
      rw [handle_scan hr, scan_of_ne_empty hne hresolve, withOrigin_outside]
  · rw [handle_scan hr, scan_of_ne_empty hne he]
    refine ⟨rfl, ?_⟩
    rcases resolveContract_error he with ⟨fault, rfl⟩ | rfl
    · exact .inr rfl
    · exact .inl (withOrigin_outside r file)
  · have hsharp : w.SameBut (fun q ↦ w'.files.entryAt q ≠ w.files.entryAt q) w' :=
      ⟨hsame.files.sharpen, hsame.others⟩
    obtain ⟨hresult, hscan⟩ := scan_sameBut hsharp hlinks (plain_of_firm hg.current) hroot
      (fun q hq hbelow ↦ hq (hsame.files.shown (not_not.mpr hbelow))) file
    rw [handle_scan hr, handle_scan hr, hresult]
    exact ⟨rfl, hscan.others, fun q hq ↦ hscan.files.shown (not_not.mpr hq)⟩

/-! ## A link out of the root -/

/-- A directory `c` of contracts and beside it another one whose name begins in the same way. -/
def besideTree (more : List (Place × Entry)) (bytes : List UInt8) : FileSystem where
  entries := [(["w"], .directory), (["w", "c"], .directory), (["w", "c2"], .directory),
    (["w", "c2", "x.sol"], .file bytes)] ++ more
  current := ["w"]

/-- A link that leads out of the contracts. -/
def wayUp : List (Place × Entry) := [(["w", "c", "up"], .link "..")]

theorem grounded_besideTree {more : List (Place × Entry)} (hmore : more = [] ∨ more = wayUp)
    (bytes : List UInt8) : (besideTree more bytes).Grounded where
  current :=
    { usable := by
        simp only [besideTree, List.mem_singleton, forall_eq]
        exact ⟨by decide, by decide, by decide⟩
      dotless := by simp [besideTree]
      real := by
        intro q hq
        rcases List.prefix_concat_iff.mp (show q <+: [] ++ ["w"] from hq) with rfl | hq
        · rcases hmore with rfl | rfl <;> rfl
        · rw [List.prefix_nil.mp hq]
          rcases hmore with rfl | rfl <;> rfl }
  targets := by
    intro q target h
    have hmem := FileSystem.mem_entries_of_linkAt h
    rcases hmore with rfl | rfl
    · simp [besideTree] at hmem
    · simp only [besideTree, wayUp, List.mem_append, List.mem_cons, List.not_mem_nil, or_false,
        Prod.mk.injEq, reduceCtorEq, and_false, false_or, Entry.link.injEq] at hmem
      rw [hmem.2]
      decide
  near := by
    intro q target h
    have hmem := FileSystem.mem_entries_of_linkAt h
    rcases hmore with rfl | rfl
    · simp [besideTree] at hmem
    · simp only [besideTree, wayUp, List.mem_append, List.mem_cons, List.not_mem_nil, or_false,
        Prod.mk.injEq, reduceCtorEq, and_false, false_or, Entry.link.injEq] at hmem
      have hcurrent : (besideTree wayUp bytes).current = ["w"] := rfl
      rw [hmem.1, hcurrent]
      decide

theorem noLinks_besideTree (bytes : List UInt8) : (besideTree [] bytes).NoLinks := by
  intro q
  cases h : (besideTree [] bytes).linkAt q with
  | none => rfl
  | some target =>
    have hmem := FileSystem.mem_entries_of_linkAt h
    simp [besideTree] at hmem

theorem sameBut_besideTree (bytes bytes' : List UInt8) :
    (besideTree [] bytes).SameBut (fun q ↦ ¬ ["w", "c"] <+: q) (besideTree [] bytes') where
  current := rfl
  entry q := by
    by_cases hq : q = ["w", "c2", "x.sol"]
    · subst hq
      exact .inr ⟨by decide, bytes, bytes', rfl, rfl⟩
    · left
      simp [FileSystem.entryAt, besideTree, List.lookup_cons, beq_eq_false_iff_ne.mpr hq]

theorem isCanonical_besideTree {more : List (Place × Entry)} (hmore : more = [] ∨ more = wayUp)
    (bytes : List UInt8) : (besideTree more bytes).IsCanonical (.ofString "c") ["w", "c"] := by
  rcases hmore with rfl | rfl
  · exact ⟨1, .step rfl (.nil _)⟩
  · exact ⟨1, .step rfl (.nil _)⟩

theorem isCanonical_up :
    (besideTree wayUp []).IsCanonical ((pathOf ["w", "c"]).append "up/c2/x.sol")
      ["w", "c2", "x.sol"] := by
  have hpath : (pathOf ["w", "c"]).append "up/c2/x.sol"
      = ⟨"/", ["w", "c", "up", "c2", "x.sol"]⟩ := by cbv
  have hup : Path.ofString ".." = ⟨"", [".."]⟩ := by cbv
  have hlink : (besideTree wayUp []).Leads 1
      (FileSystem.origin (Path.ofString "..").isAbsolute ["w", "c"]) (Path.ofString "..").parts
      ["w"] := by
    rw [hup]
    exact .step rfl (.nil _)
  rw [hpath]
  exact ⟨_, .step rfl (.step rfl (.link rfl hlink (.step rfl (.step rfl (.nil _)))))⟩

theorem routeOf_scan (s : Settings) : routeOf s (unquote "/scan") = some .scan := by
  have hpath : unquote "/scan" = "/scan" := by cbv
  rw [hpath]
  simp [routeOf, routes]

/-- The way over the link ends outside and is refused; and what the file there holds makes no
difference. -/
theorem scan_confined_beside :
    handle { contractsRoot := "c" } { path := "/scan", query := "file=up/c2/x.sol" }
        { files := besideTree wayUp [], clock := 0 }
      = (outsideAnswer { path := "/scan", query := "file=up/c2/x.sol" } "up/c2/x.sol",
        { files := besideTree wayUp [], clock := 0 }) ∧
    (handle { contractsRoot := "c" } { path := "/scan", query := "file=../c2/x.sol" }
        { files := besideTree [] [0x41], clock := 0 }).1
      = (handle { contractsRoot := "c" } { path := "/scan", query := "file=../c2/x.sol" }
        { files := besideTree [] [0x42], clock := 0 }).1 := by
  constructor
  · obtain ⟨hscan, -⟩ := scan_confined { contractsRoot := "c" }
      { path := "/scan", query := "file=up/c2/x.sol" } { files := besideTree wayUp [], clock := 0 }
      (grounded_besideTree (.inr rfl) [])
    have hquery : lastValue "file" (queryPairs "file=up/c2/x.sol") = some "up/c2/x.sol" := by cbv
    have hroot := isCanonical_besideTree (.inr rfl) []
    obtain ⟨root, hroot', hfile⟩ := hscan "up/c2/x.sol" ⟨rfl, routeOf_scan _, hquery⟩ (by decide)
      (by decide) (by decide) (FileSystem.exists_isCanonical_iff.mp ⟨_, hroot⟩)
    obtain rfl := hroot'.unique hroot
    obtain ⟨place, hplace, -, hout⟩ :=
      hfile (FileSystem.exists_isCanonical_iff.mp ⟨_, isCanonical_up⟩)
    obtain rfl := hplace.unique isCanonical_up
    exact hout (by decide)
  · obtain ⟨-, -, hsame⟩ := scan_confined { contractsRoot := "c" }
      { path := "/scan", query := "file=../c2/x.sol" } { files := besideTree [] [0x42], clock := 0 }
      (grounded_besideTree (.inl rfl) [0x42])
    have hquery : lastValue "file" (queryPairs "file=../c2/x.sol") = some "../c2/x.sol" := by cbv
    exact (hsame (some "../c2/x.sol") ["w", "c"] { files := besideTree [] [0x41], clock := 0 }
      ⟨rfl, routeOf_scan _, hquery⟩ (noLinks_besideTree [0x42])
      (isCanonical_besideTree (.inl rfl) [0x42]) ⟨sameBut_besideTree [0x42] [0x41], _, rfl⟩).1

/-! ## A link to itself -/

/-- A link that leads to itself, and a link in the directory of contracts that leads out of it. -/
def loopTree : FileSystem where
  entries := [(["loop"], .link "loop"), (["c"], .directory),
    (["c", "evil.sol"], .link "../out.sol"), (["out.sol"], .file [0x41])]
  current := []

theorem isCanonical_evil : loopTree.IsCanonical (pathOf ["c", "evil.sol"]) ["out.sol"] := by
  have hout : Path.ofString "../out.sol" = ⟨"", ["..", "out.sol"]⟩ := by cbv
  have hlink : loopTree.Leads 2 (FileSystem.origin (Path.ofString "../out.sol").isAbsolute ["c"])
      (Path.ofString "../out.sol").parts ["out.sol"] := by
    rw [hout]
    exact .step rfl (.step rfl (.nil _))
  exact ⟨_, .step rfl (.link rfl hlink (.nil _))⟩

/-- A name that goes over the loop and comes back is taken for a contract without asking where it
leads, and a file outside the root is read. A name that ends in the loop is not answered for. -/
theorem scan_through_loop :
    resolveContract { contractsRoot := "c" } loopTree "../loop/../c/evil.sol"
        = .ok ["c", "evil.sol"] ∧
      loopTree.IsCanonical (pathOf ["c", "evil.sol"]) ["out.sol"] ∧
      loopTree.readText (pathOf ["c", "evil.sol"]) = .ok "A" ∧
      (handle { contractsRoot := "c" } { path := "/scan", query := "file=../loop" }
        { files := loopTree, clock := 0 }).1.status = 500 := by
  refine ⟨by cbv, isCanonical_evil, by cbv, ?_⟩
  have hresolve : resolveContract { contractsRoot := "c" } loopTree "../loop"
      = .error (.path (.linkLoop "/loop")) := by
    cbv
  have hquery : lastValue "file" (queryPairs "file=../loop") = some "../loop" := by cbv
  have hr : Request.ScansFor { path := "/scan", query := "file=../loop" } { contractsRoot := "c" }
      (some "../loop") := ⟨rfl, routeOf_scan _, hquery⟩
  have hscan : scan { contractsRoot := "c" } (some "../loop") { files := loopTree, clock := 0 }
      = (.error (.path (.linkLoop "/loop")), { files := loopTree, clock := 0 }) :=
    scan_of_ne_empty (w := { files := loopTree, clock := 0 }) (by decide) hresolve
  rw [handle_scan hr, hscan]
  rfl

end QuantumRisk.Web

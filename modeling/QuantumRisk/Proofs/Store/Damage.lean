import Mathlib.Data.List.Induction
import QuantumRisk.Proofs.Store.Listing

/-!
# Damaged files among the reports

A directory of reports may hold files with any bytes in them. There are three kinds of bytes: those
that are no text, texts that are no report, and reports. Readers pass over files of the second kind.
A file of the first kind stops them.

So the latest report is the valid one with the greatest name, unless a file behind it is no text;
and the summary has all valid reports in the order of their names, unless some file is no text.
-/

namespace QuantumRisk

/-! ## Three kinds of bytes -/

/-- Can the bytes be decoded? -/
def Text.IsText (bytes : List UInt8) : Prop := ∃ s, Text.decode bytes = .ok s

/-- The report that the bytes of a file hold, if they hold one. -/
def Report.ofBytes? (bytes : List UInt8) : Option Report :=
  match Text.decode bytes with
  | .ok s => (ofText (Text.unified s)).toOption
  | .error _ => none

theorem Report.ofBytes?_encode_text (r : Report) : ofBytes? (Text.encode r.text) = some r := by
  rw [ofBytes?, Text.decode_encode]
  simp only [Text.unified_eq_self r.carriageReturn_notMem_text, ofText_text]
  rfl

namespace Store

variable {s : Store} {fs : FileSystem} {p : Path} {ps : List Path} {bytes : List UInt8}

open Text (IsText)

theorem readText_of_stat (h : fs.stat p = .ok (.file bytes)) :
    fs.readText p = match Text.decode bytes with
      | .error e => .error (.text e)
      | .ok s => .ok (Text.unified s) := by
  have hbytes : fs.readBytes p = .ok bytes := by rw [FileSystem.readBytes, h]
  cases hdecode : Text.decode bytes with
  | error e => simp only [FileSystem.readText, hbytes, hdecode]
  | ok s => simp only [FileSystem.readText, hbytes, hdecode]

/-- A text is read as the report that it holds, or passed over. -/
theorem loadReadable_of_isText (h : fs.stat p = .ok (.file bytes)) (htext : IsText bytes) :
    (loadReadable fs p).1 = .ok (Report.ofBytes? bytes) := by
  obtain ⟨text, hdecode⟩ := htext
  have hread : fs.readText p = .ok (Text.unified text) := by rw [readText_of_stat h, hdecode]
  have hbytes : Report.ofBytes? bytes = (Report.ofText (Text.unified text)).toOption := by
    rw [Report.ofBytes?, hdecode]
  rw [hbytes, loadReadable, load, hread]
  simp only
  cases Report.ofText (Text.unified text) with
  | ok r => rfl
  | error r => rfl

/-- What is no text is not passed over. -/
theorem loadReadable_of_not_isText (h : fs.stat p = .ok (.file bytes)) (htext : ¬ IsText bytes) :
    ∃ e, (loadReadable fs p).1 = .error (.text e) := by
  cases hdecode : Text.decode bytes with
  | ok text => exact absurd ⟨text, hdecode⟩ htext
  | error e =>
    have hread : fs.readText p = .error (.text e) := by rw [readText_of_stat h, hdecode]
    refine ⟨e, ?_⟩
    rw [loadReadable, load, hread]
    rfl

/-! ## Going through a list of files -/

theorem firstReadable_cons (fs : FileSystem) (p : Path) (ps : List Path) :
    (firstReadable fs (p :: ps)).1 = match (loadReadable fs p).1 with
      | .error e => .error e
      | .ok (some r) => .ok (some r)
      | .ok none => (firstReadable fs ps).1 := by
  rw [firstReadable]
  rcases loadReadable fs p with ⟨_ | _ | r, events⟩
  · rfl
  · rfl
  · rfl

theorem allReadable_cons (fs : FileSystem) (p : Path) (ps : List Path) :
    (allReadable fs (p :: ps)).1 = match (loadReadable fs p).1 with
      | .error e => .error e
      | .ok found => (allReadable fs ps).1.map (found.toList ++ ·) := by
  rw [allReadable]
  rcases loadReadable fs p with ⟨_ | found, events⟩
  · rfl
  · rfl

section Files

-- names in the directory, each with the bytes of its file
variable {files : List (String × List UInt8)} {f : String × List UInt8}

/-- The names are those of files with these bytes. -/
def Holding (s : Store) (fs : FileSystem) (files : List (String × List UInt8)) : Prop :=
  ∀ f ∈ files, fs.stat (s.directory.append f.1) = .ok (.file f.2)

/-- The reports that files hold, in order. -/
def reportsIn (files : List (String × List UInt8)) : List Report :=
  files.filterMap fun f ↦ Report.ofBytes? f.2

theorem reportsIn_eq (files : List (String × List UInt8)) :
    reportsIn files = (files.map (·.2)).filterMap Report.ofBytes? := by
  rw [List.filterMap_map]
  rfl

/-- Behind all reports there is a file that is no text. -/
def Blocked (files : List (String × List UInt8)) : Prop :=
  ∃ older f newer, files = older ++ f :: newer ∧ ¬ IsText f.2 ∧ reportsIn newer = []

theorem reportsIn_concat (files : List (String × List UInt8)) (f : String × List UInt8) :
    reportsIn (files ++ [f]) = reportsIn files ++ (Report.ofBytes? f.2).toList := by
  rw [reportsIn, List.filterMap_append, reportsIn]
  cases hf : Report.ofBytes? f.2 with
  | none => simp [hf]
  | some r => simp [hf]

theorem not_blocked_nil : ¬ Blocked [] := by
  rintro ⟨older, f, newer, h, -⟩
  simp at h

theorem blocked_concat_iff : Blocked (files ++ [f]) ↔
    ¬ IsText f.2 ∨ Report.ofBytes? f.2 = none ∧ Blocked files := by
  constructor
  · rintro ⟨older, g, newer, heq, hg, hnone⟩
    -- the file that blocks is the last one, or it blocks without the last one
    rcases List.eq_nil_or_concat newer with rfl | ⟨init, last, rfl⟩
    · obtain ⟨-, hlast⟩ := List.append_inj' heq rfl
      obtain rfl : f = g := by simpa using hlast
      exact .inl hg
    · rw [List.concat_eq_append, ← List.cons_append, ← List.append_assoc] at heq
      obtain ⟨rfl, hlast⟩ := List.append_inj' heq rfl
      obtain rfl : f = last := by simpa using hlast
      rw [List.concat_eq_append, reportsIn_concat, List.append_eq_nil_iff] at hnone
      exact .inr ⟨by simpa using hnone.2, older, g, init, rfl, hg, hnone.1⟩
  · rintro (hf | ⟨hf, older, g, newer, rfl, hg, hnone⟩)
    · exact ⟨files, f, [], rfl, hf, rfl⟩
    · refine ⟨older, g, newer ++ [f], by simp, hg, ?_⟩
      rw [reportsIn_concat, hnone, hf]
      rfl

/-- The search for the latest report, from the greatest name down. -/
theorem firstReadable_reverse (h : Holding s fs files) :
    (¬ Blocked files →
      (firstReadable fs (files.map fun f ↦ s.directory.append f.1).reverse).1
        = .ok (reportsIn files).getLast?) ∧
    (Blocked files → ∃ e,
      (firstReadable fs (files.map fun f ↦ s.directory.append f.1).reverse).1
        = .error (.text e)) := by
  induction files using List.reverseRecOn with
  | nil => exact ⟨fun _ ↦ rfl, fun h ↦ absurd h not_blocked_nil⟩
  | append_singleton files f ih =>
    have hf := h f (by simp)
    have ih := ih fun x hx ↦ h x (List.mem_append_left _ hx)
    rw [List.map_append, List.map_singleton, List.reverse_append, List.reverse_singleton,
      List.singleton_append, firstReadable_cons, blocked_concat_iff, reportsIn_concat]
    by_cases htext : IsText f.2
    · rw [loadReadable_of_isText hf htext]
      cases hreport : Report.ofBytes? f.2 with
      | none => simpa [htext] using ih
      | some r => simp [htext]
    · obtain ⟨e, he⟩ := loadReadable_of_not_isText hf htext
      rw [he]
      simp [htext]

/-- The collection of all reports stops at a file that is no text. -/
theorem allReadable_holding (h : Holding s fs files) :
    ((∀ f ∈ files, IsText f.2) →
      (allReadable fs (files.map fun f ↦ s.directory.append f.1)).1 = .ok (reportsIn files)) ∧
    ((∃ f ∈ files, ¬ IsText f.2) → ∃ e,
      (allReadable fs (files.map fun f ↦ s.directory.append f.1)).1 = .error (.text e)) := by
  induction files with
  | nil => exact ⟨fun _ ↦ rfl, by simp⟩
  | cons f files ih =>
    have hf := h f List.mem_cons_self
    obtain ⟨ihtext, ihfault⟩ := ih fun x hx ↦ h x (List.mem_cons_of_mem _ hx)
    rw [List.map_cons, allReadable_cons]
    by_cases htext : IsText f.2
    · rw [loadReadable_of_isText hf htext]
      refine ⟨fun hall ↦ ?_, fun ⟨g, hg, hfault⟩ ↦ ?_⟩
      · simp only [ihtext fun x hx ↦ hall x (List.mem_cons_of_mem _ hx), Except.map, reportsIn,
          List.filterMap_cons]
        cases Report.ofBytes? f.2 with
        | none => rfl
        | some r => rfl
      · rcases List.mem_cons.mp hg with rfl | hg
        · exact absurd htext hfault
        · obtain ⟨e, he⟩ := ihfault ⟨g, hg, hfault⟩
          exact ⟨e, by simp only [he, Except.map]⟩
    · obtain ⟨e, he⟩ := loadReadable_of_not_isText hf htext
      rw [he]
      exact ⟨fun hall ↦ absurd (hall f List.mem_cons_self) htext, fun _ ↦ ⟨e, rfl⟩⟩

end Files

/-! ## The files that are listed -/

theorem pairwise_mergeSort_names (names : List String) :
    (names.mergeSort fun a b ↦ decide (a ≤ b)).Pairwise (· ≤ ·) := by
  refine (List.pairwise_mergeSort ?_ ?_ names).imp of_decide_eq_true
  · intro a b c hab hbc
    exact decide_eq_true (String.le_trans (of_decide_eq_true hab) (of_decide_eq_true hbc))
  · intro a b
    simpa using String.le_total a b

theorem exists_stat_of_isFile (h : fs.isFile p = .ok true) :
    ∃ bytes, fs.stat p = .ok (.file bytes) := by
  obtain ⟨e, he, hfile⟩ := FileSystem.stat_of_probe h
  cases e with
  | file bytes => exact ⟨bytes, he⟩
  | directory => cases hfile
  | link target => cases hfile

theorem exists_holding {names : List String}
    (h : ∀ name ∈ names, fs.isFile (s.directory.append name) = .ok true) :
    ∃ files, files.map (·.1) = names ∧ Holding s fs files := by
  induction names with
  | nil => exact ⟨[], rfl, by simp [Holding]⟩
  | cons name names ih =>
    obtain ⟨files, rfl, hholding⟩ := ih fun n hn ↦ h n (List.mem_cons_of_mem _ hn)
    obtain ⟨bytes, hbytes⟩ := exists_stat_of_isFile (h name List.mem_cons_self)
    exact ⟨(name, bytes) :: files, rfl, List.forall_mem_cons.mpr ⟨hbytes, hholding⟩⟩

/-- If all can be asked, the list is one of files, in the order of their names. -/
theorem exists_files (h : Answers s fs) : ∃ files : List (String × List UInt8),
    s.list fs = .ok (files.map fun f ↦ s.directory.append f.1) ∧
      (files.map (·.1)).Pairwise (· ≤ ·) ∧ Holding s fs files := by
  obtain ⟨there, hthere, hask⟩ := h
  cases there with
  | false => exact ⟨[], list_of_absent hthere, .nil, by simp [Holding]⟩
  | true =>
    have hstat := FileSystem.isDirectory_eq_ok_true_iff.mp hthere
    obtain ⟨d, hd, hdir⟩ := FileSystem.stat_eq_ok_iff.mp hstat
    obtain ⟨g, hg, hlist⟩ := list_of_answers ⟨true, hthere, hask⟩ hd hdir
    have hfile : ∀ name ∈ (((fs.namesIn d).filter g).filter s.hasSuffix).mergeSort
        (fun a b ↦ decide (a ≤ b)), fs.isFile (s.directory.append name) = .ok true := by
      intro name hmem
      obtain ⟨hin, hfile⟩ := List.mem_filter.mp (List.mem_filter.mp (List.mem_mergeSort.mp hmem)).1
      rw [hg name hin, hfile]
    obtain ⟨files, hnames, hholding⟩ := exists_holding hfile
    refine ⟨files, ?_, ?_, hholding⟩
    · rw [hlist, ← hnames, List.map_map]
      rfl
    · rw [hnames]
      exact pairwise_mergeSort_names _

/-- **Damaged files are passed over, as long as they are texts.** The files in the list are read in
the order of their names. Those that hold no report are passed over, but one that is no text makes
the summary fail, and the search for the latest report too unless a report stands behind it. If an
entry of the directory cannot be asked whether it is a file, there is no list to read. -/
theorem readers_skip_damaged_texts (s : Store) (fs : FileSystem) :
    (Answers s fs → ∃ files : List (String × List UInt8),
      s.list fs = .ok (files.map fun f ↦ s.directory.append f.1) ∧
      (files.map (·.1)).Pairwise (· ≤ ·) ∧ Holding s fs files ∧
      (¬ Blocked files → (s.latest fs).1 = .ok (reportsIn files).getLast?) ∧
      (Blocked files → ∃ e, (s.latest fs).1 = .error (.text e)) ∧
      ((∀ f ∈ files, IsText f.2) →
        (s.summary fs).1 = .ok ⟨(reportsIn files).map Digest.ofReport⟩) ∧
      ((∃ f ∈ files, ¬ IsText f.2) → ∃ e, (s.summary fs).1 = .error (.text e))) ∧
    (¬ Answers s fs → ∃ e, s.list fs = .error e ∧ (s.latest fs).1 = .error (.path e) ∧
      (s.summary fs).1 = .error (.path e)) := by
  constructor
  · intro hanswers
    obtain ⟨files, hlist, hsorted, hholding⟩ := exists_files hanswers
    obtain ⟨hlatest, hblocked⟩ := firstReadable_reverse hholding
    obtain ⟨hall, hfault⟩ := allReadable_holding hholding
    have hsummary : (s.summary fs).1
        = (allReadable fs (files.map fun f ↦ s.directory.append f.1)).1.map
          fun rs ↦ ⟨rs.map Digest.ofReport⟩ := by rw [summary, hlist]
    refine ⟨files, hlist, hsorted, hholding, ?_, ?_, fun htext ↦ ?_, fun hnotext ↦ ?_⟩
    · rwa [latest, hlist]
    · rwa [latest, hlist]
    · rw [hsummary, hall htext]
      rfl
    · obtain ⟨e, he⟩ := hfault hnotext
      exact ⟨e, by rw [hsummary, he]; rfl⟩
  · intro hanswers
    obtain ⟨e, he⟩ := list_of_not_answers hanswers
    exact ⟨e, he, by rw [latest, he], by rw [summary, he]⟩

/-! ## Two files -/

/-- Two files in a directory of reports. -/
def pair (first second : List UInt8) : FileSystem where
  entries := [(["r"], .directory), (["r", "1-analysis.json"], .file first),
    (["r", "2-analysis.json"], .file second)]
  current := []

theorem answers_pair (first second : List UInt8) :
    Answers ⟨.ofString "r", defaultSuffix⟩ (pair first second) := by
  refine ⟨true, by cbv, fun names _ hnames name hmem ↦ ?_⟩
  obtain rfl : ["1-analysis.json", "2-analysis.json"] = names := by
    refine Except.ok.inj (Eq.trans ?_ hnames)
    cbv
  simp only [List.mem_cons, List.not_mem_nil, or_false] at hmem
  rcases hmem with rfl | rfl
  · exact ⟨true, by cbv⟩
  · exact ⟨true, by cbv⟩

theorem bytes_of_holding_pair {first second : List UInt8} {files : List (String × List UInt8)}
    (hlist : list ⟨.ofString "r", defaultSuffix⟩ (pair first second)
      = .ok (files.map fun f ↦ (Path.ofString "r").append f.1))
    (h : Holding ⟨.ofString "r", defaultSuffix⟩ (pair first second) files) :
    files.map (·.2) = [first, second] := by
  have hpaths : list ⟨.ofString "r", defaultSuffix⟩ (pair first second)
      = .ok [.ofString "r/1-analysis.json", .ofString "r/2-analysis.json"] := by cbv
  have hfirst : (pair first second).stat (.ofString "r/1-analysis.json") = .ok (.file first) := by
    cbv
  have hsecond : (pair first second).stat (.ofString "r/2-analysis.json") = .ok (.file second) := by
    cbv
  rw [hpaths] at hlist
  obtain ⟨f, rest, rfl, hf, hrest⟩ := List.map_eq_cons_iff.mp (Except.ok.inj hlist).symm
  obtain ⟨g, rest, rfl, hg, hnil⟩ := List.map_eq_cons_iff.mp hrest
  obtain rfl := List.map_eq_nil_iff.mp hnil
  have hf' := h f (by simp)
  have hg' := h g (by simp)
  simp only [hf, hfirst, Except.ok.injEq, Entry.file.injEq] at hf'
  simp only [hg, hsecond, Except.ok.injEq, Entry.file.injEq] at hg'
  simp [hf', hg']

/-- A text that breaks off is passed over: the report before it is the latest. -/
theorem latest_of_broken_text :
    (latest ⟨.ofString "r", defaultSuffix⟩ (pair (Text.encode motley.text) [0x7b])).1
      = .ok (some motley) := by
  obtain ⟨files, hlist, -, hholding, hlatest, -⟩ :=
    (readers_skip_damaged_texts ⟨.ofString "r", defaultSuffix⟩
      (pair (Text.encode motley.text) [0x7b])).1 (answers_pair _ _)
  have hbytes := bytes_of_holding_pair hlist hholding
  have hreports : reportsIn files = [motley] := by
    have hbroken : Report.ofBytes? [0x7b] = none := by cbv
    rw [reportsIn_eq, hbytes]
    simp [Report.ofBytes?_encode_text, hbroken]
  rw [hlatest, hreports]
  · rfl
  · -- both files are texts
    rintro ⟨older, f, newer, rfl, hf, -⟩
    have hmem : f.2 ∈ [Text.encode motley.text, [0x7b]] := by
      rw [← hbytes]
      simp
    simp only [List.mem_cons, List.not_mem_nil, or_false] at hmem
    rcases hmem with hmem | hmem
    · exact hf ⟨motley.text, hmem ▸ Text.decode_encode _⟩
    · exact hf ⟨"\x7b", hmem ▸ by cbv⟩

theorem latest_pair_torn (first : List UInt8) :
    (latest ⟨.ofString "r", defaultSuffix⟩ (pair first [0x22, 0xe2, 0x9a])).1
      = .error (.text .ended) := by
  cbv

/-- One that breaks off within a character is not passed over, although there is a report. -/
theorem latest_of_broken_character :
    Report.ofBytes? (Text.encode motley.text) = some motley ∧
      (latest ⟨.ofString "r", defaultSuffix⟩
        (pair (Text.encode motley.text) [0x22, 0xe2, 0x9a])).1 = .error (.text .ended) ∧
      (summary ⟨.ofString "r", defaultSuffix⟩ (pair [0x22, 0xe2, 0x9a] [])).1
        = .error (.text .ended) :=
  ⟨Report.ofBytes?_encode_text motley, latest_pair_torn _, by cbv⟩

end Store

end QuantumRisk

import Mathlib.Data.List.Nodup
import QuantumRisk.Proofs.FileSystem.Hidden
import QuantumRisk.Proofs.Store.Damage

/-!
# What is found does not depend on how it is looked for

The search for the latest report goes through the list from its end and stops at the first report;
the summary goes through all of it from its beginning. Both end at the same report. The list itself
is sorted, so the order in which a directory gives its names does not matter to any of them.

This is so if all entries of the directory can be asked whether they are files. A single entry that
cannot be asked takes the list away from all three.
-/

namespace QuantumRisk

/-! ## Trees in another order -/

namespace FileSystem

variable {fs fs' : FileSystem}

/-- No place occurs twice in the table. -/
def Distinct (fs : FileSystem) : Prop := (fs.entries.map (·.1)).Nodup

/-- The same entries in another order, so that directories give their names in another order. -/
structure Reordered (fs fs' : FileSystem) : Prop where
  current : fs'.current = fs.current
  entries : fs'.entries.Perm fs.entries

theorem lookup_eq_some_iff {entries : List (Place × Entry)} (h : (entries.map (·.1)).Nodup)
    {q : Place} {e : Entry} : List.lookup q entries = some e ↔ (q, e) ∈ entries := by
  induction entries with
  | nil => simp
  | cons a entries ih =>
    obtain ⟨p, e'⟩ := a
    obtain ⟨hnew, hrest⟩ := List.nodup_cons.mp h
    rw [List.lookup_cons, List.mem_cons, Prod.mk.injEq]
    by_cases hq : q = p
    · subst hq
      have hnot : (q, e) ∉ entries := fun hmem ↦ hnew (List.mem_map_of_mem (f := (·.1)) hmem)
      simp [hnot, eq_comm]
    · rw [beq_eq_false_iff_ne.mpr hq]
      simp [hq, ih hrest]

theorem Reordered.distinct (h : Reordered fs fs') (hfs : fs.Distinct) : fs'.Distinct :=
  (h.entries.map Prod.fst).nodup_iff.mpr hfs

theorem Reordered.entryAt_eq (h : Reordered fs fs') (hfs : fs.Distinct) (q : Place) :
    fs'.entryAt q = fs.entryAt q := by
  rw [entryAt, entryAt]
  refine ite_congr rfl (fun _ ↦ rfl) fun _ ↦ Option.ext fun e ↦ ?_
  rw [lookup_eq_some_iff (h.distinct hfs), lookup_eq_some_iff hfs, h.entries.mem_iff]

/-- Nothing is hidden by another order. -/
theorem Reordered.sameBut (h : Reordered fs fs') (hfs : fs.Distinct) :
    fs.SameBut (fun _ ↦ False) fs' :=
  ⟨h.current, fun q ↦ .inl (h.entryAt_eq hfs q)⟩

theorem Reordered.namesIn (h : Reordered fs fs') (d : Place) :
    (fs'.namesIn d).Perm (fs.namesIn d) := h.entries.filterMap _

theorem nodup_namesIn (hfs : fs.Distinct) (d : Place) : (fs.namesIn d).Nodup := by
  have hnames : fs.namesIn d = (fs.entries.map (·.1)).filterMap (nameIn d) := by
    rw [List.filterMap_map]
    rfl
  rw [hnames]
  refine hfs.filterMap fun p q name hp hq ↦ ?_
  rw [nameIn_eq_some_iff.mp hp, nameIn_eq_some_iff.mp hq]

end FileSystem

/-! ## The latest report and the summary -/

/-- The latest report is the last one of the summary, and the summary's numbers are in range. -/
structure Summary.Agrees (m : Summary) (latest : Option Report) : Prop where
  none_iff : latest = none ↔ m.total = 0
  last : latest.map Digest.ofReport = m.digests.getLast?
  total : m.total = m.digests.length
  average : m.average = .quotient m.scoreSum (max m.total 1)
  scoreSum_le : m.scoreSum ≤ 100 * m.total

/-- The divisor of an average is at least one. -/
theorem Summary.average_eq (m : Summary) :
    m.average = .quotient m.scoreSum (max m.total 1) := by
  rw [average]
  split
  · next hzero =>
    have hnone : m.digests = [] := List.eq_nil_of_length_eq_zero hzero
    rw [hzero, scoreSum, hnone]
    rfl
  · next hne => rw [Nat.max_eq_left (Nat.pos_of_ne_zero hne)]

theorem Summary.scoreSum_le (rs : List Report) :
    scoreSum ⟨rs.map Digest.ofReport⟩ ≤ 100 * rs.length := by
  induction rs with
  | nil => exact Nat.le_refl 0
  | cons r rs ih =>
    have hcons : scoreSum ⟨(r :: rs).map Digest.ofReport⟩
        = r.riskScore + scoreSum ⟨rs.map Digest.ofReport⟩ := rfl
    have hscore := r.score_le
    rw [hcons, List.length_cons]
    omega

theorem Summary.agrees (rs : List Report) :
    Summary.Agrees ⟨rs.map Digest.ofReport⟩ rs.getLast? where
  none_iff := by simp [total]
  last := List.getLast?_map.symm
  total := rfl
  average := average_eq _
  scoreSum_le := by
    rw [total, List.length_map]
    exact scoreSum_le rs

namespace Store

variable {s : Store} {fs fs' : FileSystem}

open FileSystem (Reordered)
open Text (IsText)

/-! ## The list -/

theorem mergeSort_eq_of_perm {names names' : List String} (h : names'.Perm names) :
    (names'.mergeSort fun a b ↦ decide (a ≤ b)) = names.mergeSort fun a b ↦ decide (a ≤ b) := by
  have hperm := (List.mergeSort_perm names' fun a b ↦ decide (a ≤ b)).trans
    (h.trans (List.mergeSort_perm names fun a b ↦ decide (a ≤ b)).symm)
  exact hperm.eq_of_pairwise (fun a b _ _ hab hba ↦ String.le_antisymm hab hba)
    (pairwise_mergeSort_names names') (pairwise_mergeSort_names names)

/-- A name in the directory that stands for a file and ends with the suffix. -/
structure Lists (s : Store) (fs : FileSystem) (name : String) : Prop where
  mem : ∃ names, fs.names s.directory = .ok names ∧ name ∈ names
  isFile : fs.isFile (s.directory.append name) = .ok true
  suffix : s.hasSuffix name = true

theorem not_lists_of_absent (h : fs.isDirectory s.directory = .ok false) (name : String) :
    ¬ s.Lists fs name := by
  rintro ⟨⟨names, hnames, -⟩, -, -⟩
  rw [FileSystem.isDirectory, FileSystem.probe, FileSystem.stat] at h
  rw [FileSystem.names] at hnames
  cases hd : fs.locate true s.directory with
  | error e =>
    rw [hd] at hnames
    cases hnames
  | ok d =>
    simp only [hd] at h hnames
    cases hentry : fs.entryAt d with
    | none => simp [hentry] at hnames
    | some e =>
      cases e with
      | directory => simp [hentry, Entry.isDirectory] at h
      | file bytes => simp [hentry] at hnames
      | link target => simp [hentry] at hnames

/-- If all can be asked, the list has the names that it should have, each of them once. -/
theorem exists_names (hfs : fs.Distinct) (h : Answers s fs) : ∃ names : List String,
    s.list fs = .ok (names.map s.directory.append) ∧ names.Pairwise (· < ·) ∧
      ∀ name, name ∈ names ↔ s.Lists fs name := by
  cases hthere : fs.isDirectory s.directory with
  | error e =>
    obtain ⟨there, hthere', -⟩ := h
    rw [hthere] at hthere'
    cases hthere'
  | ok there =>
    cases there with
    | false =>
      exact ⟨[], list_of_absent hthere, .nil, fun name ↦ by simp [not_lists_of_absent hthere name]⟩
    | true =>
      have hstat := FileSystem.isDirectory_eq_ok_true_iff.mp hthere
      obtain ⟨d, hd, hdir⟩ := FileSystem.stat_eq_ok_iff.mp hstat
      obtain ⟨g, hg, hlist⟩ := list_of_answers h hd hdir
      refine ⟨_, hlist, ?_, fun name ↦ ?_⟩
      · have hnodup := (List.mergeSort_perm (((fs.namesIn d).filter g).filter s.hasSuffix)
          fun a b ↦ decide (a ≤ b)).nodup_iff.mpr
            (((FileSystem.nodup_namesIn hfs d).filter _).filter _)
        refine ((pairwise_mergeSort_names _).and hnodup).imp fun {a b} ⟨hle, hne⟩ ↦ ?_
        exact String.not_le.mp fun hge ↦ hne (String.le_antisymm hle hge)
      · rw [List.mem_mergeSort, List.mem_filter, List.mem_filter]
        constructor
        · rintro ⟨⟨hmem, hfile⟩, hsuffix⟩
          exact ⟨⟨_, names_of_locate hd hdir, hmem⟩, (hg name hmem).trans (congrArg _ hfile),
            hsuffix⟩
        · rintro ⟨⟨names, hnames, hmem⟩, hfile, hsuffix⟩
          obtain rfl := Except.ok.inj ((names_of_locate hd hdir).symm.trans hnames)
          exact ⟨⟨hmem, Except.ok.inj ((hg name hmem).symm.trans hfile)⟩, hsuffix⟩

/-! ## Readers in another order -/

theorem isFile_reordered (h : Reordered fs fs') (hfs : fs.Distinct) (p : Path) :
    fs'.isFile p = fs.isFile p := (h.sameBut hfs).probe (fun _ _ ↦ rfl) p

theorem list_reordered (h : Reordered fs fs') (hfs : fs.Distinct) (hanswers : Answers s fs) :
    s.list fs' = s.list fs := by
  have hsame := h.sameBut hfs
  cases hthere : fs.isDirectory s.directory with
  | error e =>
    obtain ⟨there, hthere', -⟩ := hanswers
    rw [hthere] at hthere'
    cases hthere'
  | ok there =>
    cases there with
    | false => rw [list_of_absent hthere, list_of_absent ((hsame.isDirectory _).trans hthere)]
    | true =>
      have hstat := FileSystem.isDirectory_eq_ok_true_iff.mp hthere
      obtain ⟨d, hd, hdir⟩ := FileSystem.stat_eq_ok_iff.mp hstat
      obtain ⟨g, hg, hlist⟩ := list_of_answers hanswers hd hdir
      have hg' : ∀ name ∈ fs'.namesIn d, fs'.isFile (s.directory.append name) = .ok (g name) :=
        fun name hmem ↦ (isFile_reordered h hfs _).trans (hg name ((h.namesIn d).mem_iff.mp hmem))
      have hperm := ((h.namesIn d).filter g).filter s.hasSuffix
      rw [hlist, list_of_locate ((hsame.locate true _).trans hd) ((h.entryAt_eq hfs d).trans hdir),
        filterM_ok hg', ← mergeSort_eq_of_perm hperm]
      rfl

theorem loadReadable_reordered (h : Reordered fs fs') (hfs : fs.Distinct) (p : Path) :
    loadReadable fs' p = loadReadable fs p := by
  rw [loadReadable, loadReadable, load, load, (h.sameBut hfs).readText fun _ _ ↦ id]

theorem firstReadable_reordered (h : Reordered fs fs') (hfs : fs.Distinct) (ps : List Path) :
    firstReadable fs' ps = firstReadable fs ps := by
  induction ps with
  | nil => rfl
  | cons p ps ih => rw [firstReadable, firstReadable, loadReadable_reordered h hfs, ih]

theorem allReadable_reordered (h : Reordered fs fs') (hfs : fs.Distinct) (ps : List Path) :
    allReadable fs' ps = allReadable fs ps := by
  induction ps with
  | nil => rfl
  | cons p ps ih => rw [allReadable, allReadable, loadReadable_reordered h hfs, ih]

theorem latest_reordered (h : Reordered fs fs') (hfs : fs.Distinct) (hanswers : Answers s fs) :
    s.latest fs' = s.latest fs := by
  rw [latest, latest, list_reordered h hfs hanswers]
  cases s.list fs with
  | error e => rfl
  | ok ps => exact firstReadable_reordered h hfs ps.reverse

theorem summary_reordered (h : Reordered fs fs') (hfs : fs.Distinct) (hanswers : Answers s fs) :
    s.summary fs' = s.summary fs := by
  rw [summary, summary, list_reordered h hfs hanswers]
  cases s.list fs with
  | error e => rfl
  | ok ps => simp only [allReadable_reordered h hfs ps]

/-! ## Main statement -/

theorem not_blocked_of_isText {files : List (String × List UInt8)}
    (h : ∀ f ∈ files, IsText f.2) : ¬ Blocked files := by
  rintro ⟨older, f, newer, rfl, hf, -⟩
  exact hf (h f (by simp))

/-- **All lookups agree.** The list has the report files of the directory in strictly increasing
order of their names. If all of them are texts, the latest report and the summary are those of the
reports among them. None of the three depends on the order in which the directory gives its names.
If an entry of the directory cannot be asked whether it is a file, all three fail. -/
theorem lookups_agree (s : Store) {fs : FileSystem} (hfs : fs.Distinct) :
    (Answers s fs → ∃ files : List (String × List UInt8),
      s.list fs = .ok (files.map fun f ↦ s.directory.append f.1) ∧
      (files.map (·.1)).Pairwise (· < ·) ∧
      (∀ name, name ∈ files.map (·.1) ↔ s.Lists fs name) ∧ Holding s fs files ∧
      (∀ fs', fs.Reordered fs' →
        s.list fs' = s.list fs ∧ s.latest fs' = s.latest fs ∧ s.summary fs' = s.summary fs) ∧
      ((∀ f ∈ files, IsText f.2) → ∃ latest m, (s.latest fs).1 = .ok latest ∧
        (s.summary fs).1 = .ok m ∧ latest = (reportsIn files).getLast? ∧
        m.digests = (reportsIn files).map Digest.ofReport ∧ m.Agrees latest)) ∧
    (¬ Answers s fs → ∃ e, s.list fs = .error e ∧ (s.latest fs).1 = .error (.path e) ∧
      (s.summary fs).1 = .error (.path e)) := by
  constructor
  · intro hanswers
    obtain ⟨names, hlist, hsorted, hmem⟩ := exists_names hfs hanswers
    obtain ⟨files, rfl, hholding⟩ := exists_holding fun name hname ↦ ((hmem name).mp hname).isFile
    rw [List.map_map] at hlist
    refine ⟨files, hlist, hsorted, hmem, hholding, fun fs' h ↦ ?_, fun htext ↦ ?_⟩
    · exact ⟨list_reordered h hfs hanswers, latest_reordered h hfs hanswers,
        summary_reordered h hfs hanswers⟩
    · have hlatest := (firstReadable_reverse hholding).1 (not_blocked_of_isText htext)
      have hall := (allReadable_holding hholding).1 htext
      refine ⟨_, ⟨(reportsIn files).map Digest.ofReport⟩, ?_, ?_, rfl, rfl, Summary.agrees _⟩
      · rw [latest, hlist]
        exact hlatest
      · rw [summary, hlist]
        exact congrArg (Except.map _) hall
  · intro hanswers
    obtain ⟨e, he⟩ := list_of_not_answers hanswers
    exact ⟨e, he, by rw [latest, he], by rw [summary, he]⟩

/-- A report and a text that breaks off, in both orders. -/
theorem lookups_agree_pair :
    (pair (Text.encode motley.text) [0x7b]).Distinct ∧
      Answers ⟨.ofString "r", defaultSuffix⟩ (pair (Text.encode motley.text) [0x7b]) ∧
      ∃ m, (latest ⟨.ofString "r", defaultSuffix⟩
          ⟨(pair (Text.encode motley.text) [0x7b]).entries.reverse, []⟩).1 = .ok (some motley) ∧
        (summary ⟨.ofString "r", defaultSuffix⟩
          ⟨(pair (Text.encode motley.text) [0x7b]).entries.reverse, []⟩).1 = .ok m ∧
        m.Agrees (some motley) := by
  have hfs : (pair (Text.encode motley.text) [0x7b]).Distinct := by
    simp [FileSystem.Distinct, pair]
  have hanswers := answers_pair (Text.encode motley.text) [0x7b]
  obtain ⟨files, hlist, -, -, hholding, horder, htexts⟩ :=
    (lookups_agree ⟨.ofString "r", defaultSuffix⟩ hfs).1 hanswers
  have hbytes := bytes_of_holding_pair hlist hholding
  have htext : ∀ f ∈ files, IsText f.2 := by
    intro f hf
    have hmem : f.2 ∈ [Text.encode motley.text, [0x7b]] := hbytes ▸ List.mem_map_of_mem hf
    rcases List.mem_cons.mp hmem with hfirst | hsecond
    · exact ⟨motley.text, hfirst ▸ Text.decode_encode _⟩
    · exact ⟨"\x7b", List.mem_singleton.mp hsecond ▸ by cbv⟩
  have hreports : reportsIn files = [motley] := by
    have hbroken : Report.ofBytes? [0x7b] = none := by cbv
    rw [reportsIn_eq, hbytes]
    simp [Report.ofBytes?_encode_text, hbroken]
  obtain ⟨latest, m, hlatest, hsummary, rfl, -, hagrees⟩ := htexts htext
  rw [hreports] at hlatest hagrees
  obtain ⟨-, hlatest', hsummary'⟩ :=
    horder ⟨(pair (Text.encode motley.text) [0x7b]).entries.reverse, []⟩
      ⟨rfl, List.reverse_perm _⟩
  rw [← hlatest'] at hlatest
  rw [← hsummary'] at hsummary
  exact ⟨hfs, hanswers, m, hlatest, hsummary, hagrees⟩

/-- A report and a link to a name that is too long, which has no suffix. -/
def besideLongLink (bytes : List UInt8) : FileSystem where
  entries := [(["r"], .directory), (["r", "1-analysis.json"], .file bytes),
    (["r", "notes"], .link (String.ofList (List.replicate 64 '😀')))]
  current := []

set_option maxRecDepth 2000 in
theorem list_besideLongLink (bytes : List UInt8) :
    list ⟨.ofString "r", defaultSuffix⟩ (besideLongLink bytes)
      = .error (.refused .nameTooLong "r/notes") := by
  cbv

/-- The report is there and can be read, and yet nothing finds it. -/
theorem lookups_fail_besideLongLink :
    load (besideLongLink (Text.encode motley.text)) (.ofString "r/1-analysis.json") = .ok motley ∧
      list ⟨.ofString "r", defaultSuffix⟩ (besideLongLink (Text.encode motley.text))
        = .error (.refused .nameTooLong "r/notes") ∧
      (latest ⟨.ofString "r", defaultSuffix⟩ (besideLongLink (Text.encode motley.text))).1
        = .error (.path (.refused .nameTooLong "r/notes")) ∧
      (summary ⟨.ofString "r", defaultSuffix⟩ (besideLongLink (Text.encode motley.text))).1
        = .error (.path (.refused .nameTooLong "r/notes")) := by
  have hlist := list_besideLongLink (Text.encode motley.text)
  have hstat (bytes : List UInt8) : (besideLongLink bytes).stat (.ofString "r/1-analysis.json")
      = .ok (.file bytes) := by cbv
  exact ⟨load_of_stat (hstat _), hlist, by rw [latest, hlist], by rw [summary, hlist]⟩

end Store

end QuantumRisk

import QuantumRisk.Proofs.Store.Listing

/-!
# The store is a chronicle

Reports that are written one after another are listed in that order, whatever the clock does: tokens
grow with every write, names sort as tokens do, and directories that occupy a report name are passed
over by the writer and the reader alike.

The run is followed by an invariant, `Shelf`. One write adds one line at the end of the book
(`Shelf.write`), and so a run of writes adds the reports in their order (`Shelf.writeAll`).

The one thing that can go wrong in a run of successful writes is the reading: a listing fails if
some entry of the directory cannot be asked whether it is a file, even if its name is not that of a
report. The main result says exactly this.
-/

namespace QuantumRisk.Store

variable {s : Store} {r : Report} {rs : List Report} {w w' : Workspace} {p : Path} {ps : List Path}
  {events : List Event} {fs fs' : FileSystem} {d : Place} {book : List (Int × Report)}

/-! ## One write -/

theorem hasSuffix_reportName (s : Store) (token : Int) :
    s.hasSuffix (reportName token s.suffix) = true := by
  rw [hasSuffix, List.isSuffixOf_iff_suffix, reportName, String.toList_append]
  exact List.suffix_append _ _

theorem namesIn_put {name : String} {e : Entry} (h : fs.entryAt (d ++ [name]) = none) :
    FileSystem.namesIn (fs.put (d ++ [name]) e) d = fs.namesIn d ++ [name] := by
  have hself : FileSystem.nameIn d (d ++ [name]) = some name :=
    FileSystem.nameIn_eq_some_iff.mpr rfl
  rw [FileSystem.namesIn, FileSystem.entries_put h, List.filterMap_append, FileSystem.namesIn]
  simp only [List.filterMap_cons, hself, List.filterMap_nil]

/-- A write adds one line to the book. -/
theorem Shelf.write (h : Shelf s w.files d book) (hsuffix : '/' ∉ s.suffix.toList)
    (hw : s.write r w = (.ok p, events, w')) :
    w.lastToken < w'.lastToken ∧ p = s.reportPath w'.lastToken ∧
      Shelf s w'.files d (book ++ [(w'.lastToken, r)]) := by
  obtain ⟨fs, q, hmake, hsaved⟩ := write_ok hw
  have hthere := FileSystem.stat_eq_ok_iff.mpr ⟨d, h.place, h.directory⟩
  rw [FileSystem.makeDirectories_of_stat hthere] at hmake
  cases hmake
  have hx : FileSystem.Extends w.files w'.files := hsaved.extends
  have hq := hsaved.place hsuffix h.place
  subst hq
  have hnames : w'.files.namesIn d
      = w.files.namesIn d ++ [reportName w'.lastToken s.suffix] := by
    rw [hsaved.files]
    exact namesIn_put hsaved.free
  refine ⟨hsaved.token, hsaved.path, hx.locate h.place, hx.entry h.directory, ?_, ?_, ?_, ?_⟩
  · intro name hmem
    rw [hnames] at hmem
    rcases List.mem_append.mp hmem with hold | hnew
    · exact h.plain name hold
    · rw [List.mem_singleton.mp hnew]
      exact plain_reportName hsuffix _
  · exact fun name t hname ht ↦ h.noLink name t hname (hx.link ht)
  · have hself : holdsFile w'.files d (reportName w'.lastToken s.suffix) = true := by
      rw [holdsFile, hsaved.files, FileSystem.entryAt_put_self (by simp)]
      rfl
    have hold : (w.files.namesIn d).filter
          (fun name ↦ s.hasSuffix name && holdsFile w'.files d name)
        = (w.files.namesIn d).filter fun name ↦ s.hasSuffix name && holdsFile w.files d name := by
      refine List.filter_congr fun name hmem ↦ ?_
      obtain ⟨e, he⟩ := Option.isSome_iff_exists.mp (FileSystem.mem_namesIn_iff.mp hmem)
      rw [holdsFile, holdsFile, he, hx.entry he]
    rw [hnames, List.filter_append, hold, h.order, List.map_append]
    simp [hasSuffix_reportName, hself]
  · intro x hmem
    rcases List.mem_append.mp hmem with hold | hnew
    · exact hx.stat (h.saved x hold)
    · rw [List.mem_singleton.mp hnew]
      rw [← hsaved.path]
      exact hsaved.stat

/-! ## A run of writes -/

/-- Write reports one after another, up to the first that fails. -/
def writeAll (s : Store) : List Report → Workspace → Except Fault (List Path) × Workspace
  | [], w => (.ok [], w)
  | r :: rs, w =>
    match s.write r w with
    | (.error e, _, w) => (.error e, w)
    | (.ok p, _, w) => ((writeAll s rs w).1.map (p :: ·), (writeAll s rs w).2)

theorem writeAll_cons_ok (h : s.writeAll (r :: rs) w = (.ok ps, w')) :
    ∃ p events w₁ ps', s.write r w = (.ok p, events, w₁) ∧ s.writeAll rs w₁ = (.ok ps', w') ∧
      ps = p :: ps' := by
  rw [writeAll] at h
  split at h
  · cases h
  next p events w₁ hw =>
  obtain ⟨hps, hw'⟩ := Prod.mk.inj h
  cases hrest : (s.writeAll rs w₁).1 with
  | error e =>
    rw [hrest] at hps
    cases hps
  | ok ps' =>
    rw [hrest] at hps
    exact ⟨p, events, w₁, ps', hw, Prod.ext hrest hw', (Except.ok.inj hps).symm⟩

/-- A run of writes adds its reports to the book in their order, under growing tokens. -/
theorem Shelf.writeAll (h : Shelf s w.files d book) (hsuffix : '/' ∉ s.suffix.toList)
    (hw : s.writeAll rs w = (.ok ps, w')) :
    ∃ new : List (Int × Report), Shelf s w'.files d (book ++ new) ∧ new.map (·.2) = rs ∧
      ps = new.map (fun x ↦ s.reportPath x.1) ∧ new.Pairwise (fun x y ↦ x.1 < y.1) ∧
      (∀ x ∈ new, w.lastToken < x.1 ∧ x.1 ≤ w'.lastToken) ∧ w.lastToken ≤ w'.lastToken := by
  induction rs generalizing w ps book with
  | nil =>
    cases hw
    refine ⟨[], ?_, rfl, rfl, .nil, ?_, Int.le_refl _⟩
    · rwa [List.append_nil]
    · intro x hx
      cases hx
  | cons r rs ih =>
    obtain ⟨p, events, w₁, ps', hwrite, hrest, rfl⟩ := writeAll_cons_ok hw
    obtain ⟨hlt, rfl, hshelf⟩ := h.write hsuffix hwrite
    obtain ⟨new, hnew, hreports, rfl, hgrow, hrange, hle⟩ := ih hshelf hrest
    refine ⟨(w₁.lastToken, r) :: new, ?_, ?_, rfl, ?_, ?_, ?_⟩
    · rwa [List.append_assoc] at hnew
    · rw [List.map_cons, hreports]
    · exact List.pairwise_cons.mpr ⟨fun x hx ↦ (hrange x hx).1, hgrow⟩
    · intro x hx
      rcases List.mem_cons.mp hx with rfl | hx
      · exact ⟨hlt, hle⟩
      · have := hrange x hx
        omega
    · omega

/-! ## The first write -/

/-- Nothing but directories stands under report names in the report directory. The directory is
where its path leads once it is made. -/
def Vacant (s : Store) (fs : FileSystem) : Prop :=
  ∀ d name e, (fs.makeDirectories s.directory).2.locate true s.directory = .ok d →
    s.hasSuffix name = true → fs.entryAt (d ++ [name]) = some e → e = .directory

theorem shelf_of_vacant (htree : fs.PlainNames) (hproper : s.directory.Proper)
    (hvacant : Vacant s fs) (hmake : fs.makeDirectories s.directory = (.ok (), fs')) :
    ∃ d, Shelf s fs' d [] := by
  obtain ⟨d, hd, hdir⟩ := FileSystem.stat_eq_ok_iff.mp (FileSystem.stat_of_makeDirectories hmake)
  have hplain := htree.makeDirectories hproper
  have hway := FileSystem.madeOnWay_makeDirectories s.directory fs
  have hvacant' := hvacant d
  rw [hmake] at hplain hway hvacant'
  -- an entry under a report name is an old one, or a directory made on the way
  have hdirs : ∀ name e, s.hasSuffix name = true → fs'.entryAt (d ++ [name]) = some e →
      e = .directory := by
    intro name e hname he
    cases hold : fs.entryAt (d ++ [name]) with
    | none => exact (hway.added hold he).1
    | some e' =>
      have := hway.grown.entry hold
      rw [he] at this
      cases this
      exact hvacant' name e hd hname hold
  refine ⟨d, hd, hdir, ?_, ?_, ?_, ?_⟩
  · intro name hmem
    exact hplain.entries (FileSystem.mem_namesIn_iff.mp hmem) name (by simp)
  · intro name t hname ht
    cases hdirs name _ hname ht
  · rw [List.map_nil, List.filter_eq_nil_iff]
    intro name hmem hboth
    obtain ⟨hname, hholds⟩ := Bool.and_eq_true_iff.mp hboth
    obtain ⟨e, he⟩ := Option.isSome_iff_exists.mp (FileSystem.mem_namesIn_iff.mp hmem)
    rw [holdsFile, he, hdirs name e hname he] at hholds
    cases hholds
  · intro x hx
    cases hx

/-- Making the directory beforehand makes no difference to a write. -/
theorem write_of_made (hmake : w.files.makeDirectories s.directory = (.ok (), fs)) :
    s.write r w = s.write r { w with files := fs } := by
  have hthere := FileSystem.makeDirectories_of_stat (FileSystem.stat_of_makeDirectories hmake)
  rw [write, write, hmake, hthere]

theorem exists_book (htree : w.files.PlainNames) (hproper : s.directory.Proper)
    (hsuffix : '/' ∉ s.suffix.toList) (hvacant : Vacant s w.files)
    (hthere : rs ≠ [] ∨ w.files.stat s.directory = .ok .directory)
    (hw : s.writeAll rs w = (.ok ps, w')) :
    ∃ d book, Shelf s w'.files d book ∧ book.map (·.2) = rs ∧
      ps = book.map (fun x ↦ s.reportPath x.1) ∧ book.Pairwise (fun x y ↦ x.1 < y.1) ∧
      ∀ x ∈ book, w.lastToken < x.1 ∧ x.1 ≤ w'.lastToken := by
  -- the directory is there, or the first write makes it; either way it can be made beforehand
  obtain ⟨fs, hmake, hw⟩ : ∃ fs, w.files.makeDirectories s.directory = (.ok (), fs) ∧
      s.writeAll rs { w with files := fs } = (.ok ps, w') := by
    cases rs with
    | nil =>
      have hthere : w.files.stat s.directory = .ok .directory := by simpa using hthere
      exact ⟨w.files, FileSystem.makeDirectories_of_stat hthere, hw⟩
    | cons r rs =>
      obtain ⟨p, events, w₁, ps', hwrite, -, -⟩ := writeAll_cons_ok hw
      obtain ⟨fs, q, hmake, -⟩ := write_ok hwrite
      refine ⟨fs, hmake, ?_⟩
      rwa [writeAll, write_of_made hmake, ← writeAll] at hw
  obtain ⟨d, hshelf⟩ := shelf_of_vacant htree hproper hvacant hmake
  obtain ⟨book, hbook, hreports, hps, hgrow, hrange, -⟩ :=
    Shelf.writeAll (w := { w with files := fs }) hshelf hsuffix hw
  exact ⟨d, book, hbook, hreports, hps, hgrow, hrange⟩

/-! ## Reading the book -/

theorem loadReadable_of_stat (h : fs.stat p = .ok (.file (Text.encode r.text))) :
    loadReadable fs p = (.ok (some r), []) := by
  rw [loadReadable, load_of_stat h]

theorem latest_of_list (hlist : s.list fs = .ok (book.map fun x ↦ s.reportPath x.1))
    (hsaved : ∀ x ∈ book, fs.stat (s.reportPath x.1) = .ok (.file (Text.encode x.2.text))) :
    s.latest fs = (.ok (book.map (·.2)).getLast?, []) := by
  rw [latest, hlist]
  rcases List.eq_nil_or_concat book with rfl | ⟨init, x, rfl⟩
  · rfl
  · have hx := loadReadable_of_stat (hsaved x (by simp))
    simp [firstReadable, hx]

theorem allReadable_of_stat
    (hsaved : ∀ x ∈ book, fs.stat (s.reportPath x.1) = .ok (.file (Text.encode x.2.text))) :
    allReadable fs (book.map fun x ↦ s.reportPath x.1) = (.ok (book.map (·.2)), []) := by
  induction book with
  | nil => rfl
  | cons x book ih =>
    have hx := loadReadable_of_stat (hsaved x List.mem_cons_self)
    have hrest := ih fun y hy ↦ hsaved y (List.mem_cons_of_mem _ hy)
    rw [List.map_cons, allReadable, hx]
    simp only [hrest]
    rfl

theorem summary_of_list (hlist : s.list fs = .ok (book.map fun x ↦ s.reportPath x.1))
    (hsaved : ∀ x ∈ book, fs.stat (s.reportPath x.1) = .ok (.file (Text.encode x.2.text))) :
    s.summary fs = (.ok ⟨(book.map (·.2)).map Digest.ofReport⟩, []) := by
  rw [summary, hlist]
  simp only [allReadable_of_stat hsaved]
  rfl

/-! ## The chronicle -/

/-- The names of growing tokens in range are in order. -/
theorem pairwise_reportName (hgrow : book.Pairwise (fun x y ↦ x.1 < y.1))
    (hrange : ∀ x ∈ book, 0 ≤ x.1 ∧ x.1 < 10 ^ tokenWidth) (suffix : String) :
    (book.map fun x ↦ reportName x.1 suffix).Pairwise (· ≤ ·) := by
  rw [List.pairwise_map]
  refine hgrow.imp_of_mem fun hx hy hlt ↦ ?_
  exact String.not_lt.mp
    (String.lt_asymm (reportName_lt (hrange _ hx).1 hlt (hrange _ hy).2 suffix))

/-- **A chronicle.** Reports written one after another into a directory without reports are listed
in the order of the writes, the last one is the latest, and the summary has them all, whatever the
clock shows and whatever else the directory holds, provided that all its entries answer. If one does
not, listing, latest and summary fail. -/
theorem chronicle {text : String} (hpath : s.directory = .ofString text)
    (hsuffix : '/' ∉ s.suffix.toList) (htree : w.files.PlainNames) (hvacant : Vacant s w.files)
    (hlast : 0 ≤ w.lastToken) (hw : s.writeAll rs w = (.ok ps, w'))
    (htokens : rs ≠ [] → w'.lastToken < 10 ^ tokenWidth) :
    (Answers s w'.files →
      s.list w'.files = .ok ps ∧ s.latest w'.files = (.ok rs.getLast?, []) ∧
      ∃ all, s.summary w'.files = (.ok all, []) ∧ all.total = rs.length ∧
        all.digests = rs.map Digest.ofReport) ∧
    (¬ Answers s w'.files →
      ∃ e, s.list w'.files = .error e ∧ s.latest w'.files = (.error (.path e), []) ∧
        s.summary w'.files = (.error (.path e), [])) := by
  constructor
  · intro hanswers
    obtain ⟨book, hlist, hsaved, rfl, rfl⟩ : ∃ book : List (Int × Report),
        s.list w'.files = .ok (book.map fun x ↦ s.reportPath x.1) ∧
        (∀ x ∈ book, w'.files.stat (s.reportPath x.1) = .ok (.file (Text.encode x.2.text))) ∧
        book.map (·.2) = rs ∧ book.map (fun x ↦ s.reportPath x.1) = ps := by
      by_cases hthere : rs ≠ [] ∨ w.files.stat s.directory = .ok .directory
      · have hproper : s.directory.Proper := hpath ▸ Path.proper_ofString text
        obtain ⟨d, book, hshelf, rfl, rfl, hgrow, hrange⟩ :=
          exists_book htree hproper hsuffix hvacant hthere hw
        refine ⟨book, hshelf.list hanswers ?_, hshelf.saved, rfl, rfl⟩
        refine pairwise_reportName hgrow (fun x hx ↦ ?_) s.suffix
        have hlimit := htokens (by
          rw [ne_eq, List.map_eq_nil_iff]
          exact List.ne_nil_of_mem hx)
        have := hrange x hx
        exact ⟨by omega, Int.lt_of_le_of_lt this.2 hlimit⟩
      · -- nothing was written and the directory is not there
        rw [not_or, not_not] at hthere
        obtain ⟨rfl, habsent⟩ := hthere
        cases hw
        refine ⟨[], list_of_absent ?_, by simp, rfl, rfl⟩
        obtain ⟨there, hisdir, -⟩ := hanswers
        cases there with
        | false => exact hisdir
        | true => exact absurd (FileSystem.isDirectory_eq_ok_true_iff.mp hisdir) habsent
    refine ⟨hlist, latest_of_list hlist hsaved, _, summary_of_list hlist hsaved, ?_, rfl⟩
    rw [Summary.total, List.length_map]
  · intro hfault
    obtain ⟨e, he⟩ := list_of_not_answers hfault
    exact ⟨e, he, by rw [latest, he], by rw [summary, he]⟩

/-! ## A run in a cluttered directory -/

/-- A directory with a note in it, a directory under a report name, and reports. -/
def cluttered (reports : List (Place × Entry)) : FileSystem where
  entries := [(["r"], .directory), (["r", "notes"], .file []),
    (["r", "old-analysis.json"], .directory)] ++ reports
  current := []

theorem plainNames_cluttered : (cluttered []).PlainNames := by
  refine ⟨by simp [cluttered], fun {q} hq ↦ ?_⟩
  have hplaces : q = [] ∨ q = ["r"] ∨ q = ["r", "notes"] ∨ q = ["r", "old-analysis.json"] := by
    simp only [cluttered, FileSystem.entryAt, List.lookup, List.append_nil] at hq
    grind
  have hr : Path.Plain "r" := ⟨by decide, by decide, by decide, by decide⟩
  have hnotes : Path.Plain "notes" := ⟨by decide, by decide, by decide, by decide⟩
  have hold : Path.Plain "old-analysis.json" := ⟨by decide, by decide, by decide, by decide⟩
  rcases hplaces with rfl | rfl | rfl | rfl
  all_goals simp [hr, hnotes, hold]

theorem vacant_cluttered : Vacant ⟨.ofString "r", defaultSuffix⟩ (cluttered []) := by
  intro d name e hd hname he
  have hplace : ((cluttered []).makeDirectories (.ofString "r")).2.locate true (.ofString "r")
      = .ok ["r"] := by cbv
  obtain rfl : ["r"] = d := Except.ok.inj (hplace.symm.trans hd)
  have hne : name ≠ "notes" := by
    rintro rfl
    exact absurd hname (by decide)
  simp only [cluttered, FileSystem.entryAt, List.lookup, List.append_nil] at he
  grind

theorem answers_cluttered (b c : List UInt8) : Answers ⟨.ofString "r", defaultSuffix⟩
    (cluttered [(["r", "0000000000005-analysis.json"], .file b),
      (["r", "0000000000006-analysis.json"], .file c)]) := by
  refine ⟨true, by cbv, fun names _ hnames name hmem ↦ ?_⟩
  obtain rfl : ["notes", "old-analysis.json", "0000000000005-analysis.json",
      "0000000000006-analysis.json"] = names := by
    refine Except.ok.inj (Eq.trans ?_ hnames)
    cbv
  simp only [List.mem_cons, List.not_mem_nil, or_false] at hmem
  rcases hmem with rfl | rfl | rfl | rfl
  · exact ⟨true, by cbv⟩
  · exact ⟨false, by cbv⟩
  · exact ⟨true, by cbv⟩
  · exact ⟨true, by cbv⟩

/-- The first write into the directory. -/
theorem write_cluttered (r : Report) : ∃ events,
    write ⟨.ofString "r", defaultSuffix⟩ r { files := cluttered [], clock := 5000000, ticks := [0] }
      = (.ok (.ofString "r/0000000000005-analysis.json"), events,
        { files := cluttered [(["r", "0000000000005-analysis.json"], .file (Text.encode r.text))]
          clock := 0, lastToken := 5 }) := by
  let s : Store := ⟨.ofString "r", defaultSuffix⟩
  let w : Workspace := { files := cluttered [], clock := 5000000, ticks := [0] }
  have hdraw : draw w = (5, { files := cluttered [], clock := 0, lastToken := 5 }) := by cbv
  have hpath : s.reportPath 5 = .ofString "r/0000000000005-analysis.json" := by cbv
  have hready : s.Ready w (cluttered []) (.ofString "/r/.00000000.tmp") ["r", ".00000000.tmp"]
      ["r", "0000000000005-analysis.json"] :=
    ⟨by cbv, by cbv, by cbv, by cbv, by cbv, by decide⟩
  have h : s.write r w = _ := write_of_ready (by cbv) hready
  rw [FileSystem.put_of_free hready.free, hdraw, hpath] at h
  exact ⟨_, h⟩

/-- The second write, after the clock has gone back. -/
theorem write_cluttered_again (b : List UInt8) (r : Report) : ∃ events,
    write ⟨.ofString "r", defaultSuffix⟩ r
        { files := cluttered [(["r", "0000000000005-analysis.json"], .file b)]
          clock := 0, lastToken := 5 }
      = (.ok (.ofString "r/0000000000006-analysis.json"), events,
        { files := cluttered [(["r", "0000000000005-analysis.json"], .file b),
            (["r", "0000000000006-analysis.json"], .file (Text.encode r.text))]
          clock := 0, lastToken := 6 }) := by
  let s : Store := ⟨.ofString "r", defaultSuffix⟩
  let fs : FileSystem := cluttered [(["r", "0000000000005-analysis.json"], .file b)]
  let w : Workspace := { files := fs, clock := 0, lastToken := 5 }
  have hdraw : draw w = (6, { files := fs, clock := 0, lastToken := 6 }) := by cbv
  have hpath : s.reportPath 6 = .ofString "r/0000000000006-analysis.json" := by cbv
  have hready : s.Ready w fs (.ofString "/r/.00000000.tmp") ["r", ".00000000.tmp"]
      ["r", "0000000000006-analysis.json"] :=
    ⟨by cbv, by cbv, by cbv, by cbv, by cbv, by decide⟩
  have h : s.write r w = _ := write_of_ready (by cbv) hready
  rw [FileSystem.put_of_free hready.free, hdraw, hpath] at h
  exact ⟨_, h⟩

/-- A report without any finding. -/
def blameless : Report where
  contract := "B.sol"
  ecrecoverCount := 0
  keyExposureCount := 0
  riskScore := 0
  warnings := []

/-- Two reports, written while the clock goes back. -/
theorem chronicle_cluttered : ∃ w',
    writeAll ⟨.ofString "r", defaultSuffix⟩ [motley, blameless]
      { files := cluttered [], clock := 5000000, ticks := [0] }
        = (.ok [.ofString "r/0000000000005-analysis.json",
            .ofString "r/0000000000006-analysis.json"], w') ∧
    list ⟨.ofString "r", defaultSuffix⟩ w'.files
      = .ok [.ofString "r/0000000000005-analysis.json",
          .ofString "r/0000000000006-analysis.json"] ∧
    latest ⟨.ofString "r", defaultSuffix⟩ w'.files = (.ok (some blameless), []) := by
  obtain ⟨events, hfirst⟩ := write_cluttered motley
  obtain ⟨events', hsecond⟩ := write_cluttered_again (Text.encode motley.text) blameless
  let w₂ : Workspace :=
    { files := cluttered [(["r", "0000000000005-analysis.json"], .file (Text.encode motley.text)),
        (["r", "0000000000006-analysis.json"], .file (Text.encode blameless.text))]
      clock := 0, lastToken := 6 }
  have hw : writeAll ⟨.ofString "r", defaultSuffix⟩ [motley, blameless]
      { files := cluttered [], clock := 5000000, ticks := [0] }
        = (.ok [.ofString "r/0000000000005-analysis.json",
            .ofString "r/0000000000006-analysis.json"], w₂) := by
    rw [writeAll, hfirst]
    simp only [writeAll, hsecond, Except.map]
    rfl
  have h := chronicle rfl (by decide) plainNames_cluttered vacant_cluttered (by decide) hw
    fun _ ↦ by decide
  obtain ⟨hlist, hlatest, -⟩ := h.1 (answers_cluttered _ _)
  exact ⟨w₂, hw, hlist, hlatest⟩

set_option maxRecDepth 2000 in
/-- A link to a name that is too long makes the listing fail, although it is no report. -/
theorem list_long_link : list ⟨.ofString "r", defaultSuffix⟩
    ⟨[(["r"], .directory), (["r", "notes"], .link (String.ofList (List.replicate 64 '😀')))], []⟩
      = .error (.refused .nameTooLong "r/notes") := by
  cbv

end QuantumRisk.Store

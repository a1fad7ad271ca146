import QuantumRisk.Proofs.FileSystem.PlainNames
import QuantumRisk.Proofs.Store.Load

/-!
# Listing the reports

A listing asks every entry of the directory whether it is a file, and only then looks at its name.
So the listing fails if a single entry cannot be asked, also one that is no report; `Answers` says
that all can be asked, and without it there is no list at all (`list_of_not_answers`).

What a directory holds is described by `Shelf`: a book of tokens and reports, in the order of the
table, which are exactly the files under report names. If all entries answer and the names are in
order, the list is the book (`Shelf.list`).
-/

namespace QuantumRisk.Store

variable {s : Store} {fs : FileSystem} {d : Place} {book : List (Int × Report)}

/-! ## Asking a list of names -/

section Asking

variable {α : Type} {f : α → Except PathFault Bool} {l : List α}

theorem filterAuxM_ok {g : α → Bool} (h : ∀ a ∈ l, f a = .ok (g a)) (acc : List α) :
    List.filterAuxM f l acc = .ok ((l.filter g).reverse ++ acc) := by
  induction l generalizing acc with
  | nil => rfl
  | cons a l ih =>
    rw [List.filterAuxM, h a List.mem_cons_self]
    have hrest := ih (fun b hb ↦ h b (List.mem_cons_of_mem _ hb)) (bif g a then a :: acc else acc)
    refine hrest.trans ?_
    cases hg : g a with
    | true => simp [hg]
    | false => simp [hg]

theorem filterM_ok {g : α → Bool} (h : ∀ a ∈ l, f a = .ok (g a)) :
    l.filterM f = .ok (l.filter g) := by
  rw [List.filterM, filterAuxM_ok h]
  simp [bind, Except.bind, pure, Except.pure]

theorem filterAuxM_error {a : α} {e : PathFault} (ha : a ∈ l) (h : f a = .error e) (acc : List α) :
    ∃ e', List.filterAuxM f l acc = .error e' := by
  induction l generalizing acc with
  | nil => cases ha
  | cons b l ih =>
    rw [List.filterAuxM]
    cases hb : f b with
    | error e' => exact ⟨e', rfl⟩
    | ok c =>
      rcases List.mem_cons.mp ha with rfl | hmem
      · rw [h] at hb
        cases hb
      · exact ih hmem _

theorem filterM_error {a : α} {e : PathFault} (ha : a ∈ l) (h : f a = .error e) :
    ∃ e', l.filterM f = .error e' := by
  obtain ⟨e', he'⟩ := filterAuxM_error ha h []
  exact ⟨e', by rw [List.filterM, he']; rfl⟩

end Asking

/-! ## When a listing fails -/

/-- Can everything be asked that a listing asks: the directory, and every entry in it? -/
def Answers (s : Store) (fs : FileSystem) : Prop :=
  ∃ there, fs.isDirectory s.directory = .ok there ∧
    ∀ names, there = true → fs.names s.directory = .ok names →
      ∀ name ∈ names, ∃ isFile, fs.isFile (s.directory.append name) = .ok isFile

theorem list_of_absent (h : fs.isDirectory s.directory = .ok false) : s.list fs = .ok [] := by
  rw [list, h]
  rfl

theorem names_of_locate (hd : fs.locate true s.directory = .ok d)
    (hdir : fs.entryAt d = some .directory) : fs.names s.directory = .ok (fs.namesIn d) := by
  rw [FileSystem.names, hd]
  simp only [hdir]

theorem list_of_locate (hd : fs.locate true s.directory = .ok d)
    (hdir : fs.entryAt d = some .directory) :
    s.list fs = ((fs.namesIn d).filterM fun name ↦ fs.isFile (s.directory.append name)).map
      fun files ↦ ((files.filter s.hasSuffix).mergeSort fun a b ↦ decide (a ≤ b)).map
        s.directory.append := by
  have hthere : fs.isDirectory s.directory = .ok true :=
    FileSystem.isDirectory_eq_ok_true_iff.mpr (FileSystem.stat_eq_ok_iff.mpr ⟨d, hd, hdir⟩)
  rw [list, hthere, names_of_locate hd hdir]
  rfl

/-- **A question without an answer leaves no list.** -/
theorem list_of_not_answers (h : ¬ Answers s fs) : ∃ e, s.list fs = .error e := by
  cases hthere : fs.isDirectory s.directory with
  | error e => exact ⟨e, by rw [list, hthere]; rfl⟩
  | ok there =>
    cases there with
    | false =>
      refine absurd ⟨false, hthere, ?_⟩ h
      intro names hfalse
      cases hfalse
    | true =>
      have hstat := FileSystem.isDirectory_eq_ok_true_iff.mp hthere
      obtain ⟨d, hd, hdir⟩ := FileSystem.stat_eq_ok_iff.mp hstat
      have hsome : ∃ name ∈ fs.namesIn d, ∃ e, fs.isFile (s.directory.append name) = .error e := by
        refine Classical.byContradiction fun hnone ↦ h ⟨true, hthere, ?_⟩
        intro names _ hnames name hmem
        rw [names_of_locate hd hdir] at hnames
        cases hnames
        cases hfile : fs.isFile (s.directory.append name) with
        | ok b => exact ⟨b, rfl⟩
        | error e => exact absurd ⟨name, hmem, e, hfile⟩ hnone
      obtain ⟨name, hmem, e, hfile⟩ := hsome
      obtain ⟨e', he'⟩ :=
        filterM_error (f := fun name ↦ fs.isFile (s.directory.append name)) hmem hfile
      exact ⟨e', by rw [list_of_locate hd hdir, he']; rfl⟩

/-- If all can be asked, the answers decide which names are listed. -/
theorem list_of_answers (h : Answers s fs) (hd : fs.locate true s.directory = .ok d)
    (hdir : fs.entryAt d = some .directory) : ∃ g : String → Bool,
    (∀ name ∈ fs.namesIn d, fs.isFile (s.directory.append name) = .ok (g name)) ∧
      s.list fs = .ok (((((fs.namesIn d).filter g).filter s.hasSuffix).mergeSort
        fun a b ↦ decide (a ≤ b)).map s.directory.append) := by
  have hthere : fs.isDirectory s.directory = .ok true :=
    FileSystem.isDirectory_eq_ok_true_iff.mpr (FileSystem.stat_eq_ok_iff.mpr ⟨d, hd, hdir⟩)
  obtain ⟨there, hthere', hask⟩ := h
  have hall : ∀ name ∈ fs.namesIn d, ∃ b, fs.isFile (s.directory.append name) = .ok b :=
    hask _ (Except.ok.inj (hthere'.symm.trans hthere)) (names_of_locate hd hdir)
  let g (name : String) : Bool := (fs.isFile (s.directory.append name)).toOption.getD false
  have hg : ∀ name ∈ fs.namesIn d, fs.isFile (s.directory.append name) = .ok (g name) := by
    intro name hmem
    obtain ⟨b, hb⟩ := hall name hmem
    simp only [g, hb]
    rfl
  refine ⟨g, hg, ?_⟩
  rw [list_of_locate hd hdir, filterM_ok hg]
  rfl

/-! ## What a directory holds -/

/-- Does a file stand under a name in the directory? -/
def holdsFile (fs : FileSystem) (d : Place) (name : String) : Bool :=
  (fs.entryAt (d ++ [name])).any Entry.isFile

/-- The directory at `d` holds the reports of a book and, under report names, nothing else but
directories. The book is in the order of the table. -/
structure Shelf (s : Store) (fs : FileSystem) (d : Place) (book : List (Int × Report)) : Prop where
  place : fs.locate true s.directory = .ok d
  directory : fs.entryAt d = some .directory
  plain : ∀ name ∈ fs.namesIn d, Path.Plain name
  noLink : ∀ name t, s.hasSuffix name = true → fs.entryAt (d ++ [name]) ≠ some (.link t)
  order : (fs.namesIn d).filter (fun name ↦ s.hasSuffix name && holdsFile fs d name)
    = book.map fun x ↦ reportName x.1 s.suffix
  saved : ∀ x ∈ book, fs.stat (s.reportPath x.1) = .ok (.file (Text.encode x.2.text))

/-- A name with the suffix is found to be a file exactly if a file stands there. -/
theorem Shelf.isFile_eq (h : Shelf s fs d book) {name : String} {b : Bool}
    (hmem : name ∈ fs.namesIn d) (hsuffix : s.hasSuffix name = true)
    (hb : fs.isFile (s.directory.append name) = .ok b) : b = holdsFile fs d name := by
  cases hholds : holdsFile fs d name with
  | true =>
    -- then it is in the book, and what is in the book can be read
    have hbook : name ∈ book.map fun x ↦ reportName x.1 s.suffix := by
      rw [← h.order, List.mem_filter]
      exact ⟨hmem, by rw [hsuffix, hholds]; rfl⟩
    obtain ⟨x, hx, rfl⟩ := List.mem_map.mp hbook
    have : fs.isFile (s.reportPath x.1) = .ok true := FileSystem.probe_of_stat (h.saved x hx)
    exact Except.ok.inj (hb.symm.trans this)
  | false =>
    cases b with
    | false => rfl
    | true =>
      obtain ⟨e, he, hfile⟩ := FileSystem.stat_of_probe hb
      obtain ⟨q, hq, hentry⟩ := FileSystem.stat_eq_ok_iff.mp he
      rcases FileSystem.locate_append (h.plain name hmem) h.place hq with rfl | ⟨-, t, ht⟩
      · rw [holdsFile, hentry] at hholds
        exact absurd hfile (by simpa using hholds)
      · exact absurd ht (h.noLink name t hsuffix)

/-- **The list is the book**, if every entry answers and the names are in order. -/
theorem Shelf.list (h : Shelf s fs d book) (hanswers : Answers s fs)
    (hsorted : (book.map fun x ↦ reportName x.1 s.suffix).Pairwise (· ≤ ·)) :
    s.list fs = .ok (book.map fun x ↦ s.reportPath x.1) := by
  obtain ⟨g, hg, hlist⟩ := list_of_answers hanswers h.place h.directory
  have hfilter : ((fs.namesIn d).filter g).filter s.hasSuffix
      = book.map fun x ↦ reportName x.1 s.suffix := by
    rw [← h.order, List.filter_filter]
    refine List.filter_congr fun name hmem ↦ ?_
    cases hsuffix : s.hasSuffix name with
    | false => rfl
    | true => rw [h.isFile_eq hmem hsuffix (hg name hmem)]
  have hpairwise : (book.map fun x ↦ reportName x.1 s.suffix).Pairwise
      fun a b ↦ decide (a ≤ b) = true := hsorted.imp fun hab ↦ decide_eq_true hab
  rw [hlist, hfilter, List.mergeSort_of_pairwise hpairwise, List.map_map]
  rfl

end QuantumRisk.Store

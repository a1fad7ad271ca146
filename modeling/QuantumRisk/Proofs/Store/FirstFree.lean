import QuantumRisk.Proofs.Store.Hidden
import QuantumRisk.Proofs.Store.Load
import QuantumRisk.Proofs.Store.Tokens

/-!
# The first free name

While the clock stands still, a write tries the names of consecutive tokens and takes the first one
that is free. The temporary file is in the tree while names are tried, but it is not in the way: no
report name begins with a dot. So each attempt finds what the directory held before the write
(`Trying.link`), and the attempts are counted by an induction on the names that are taken
(`claim_of_taken`).

A name can also be refused because the system does not accept its path. Those paths are `Accepted`
that can be linked wherever nothing stands under the name.
-/

namespace QuantumRisk

/-! ## Paths that can be linked -/

/-- A path that the system accepts: there is no null character in it, and neither the path nor its
last name is too long. -/
def Path.Accepted (p : Path) : Prop :=
  '\x00' ∉ p.text.toList ∧ p.text.utf8ByteSize < FileSystem.pathLimit ∧
    p.name.utf8ByteSize ≤ FileSystem.nameLimit

instance (p : Path) : Decidable p.Accepted := inferInstanceAs (Decidable (_ ∧ _ ∧ _))

theorem FileSystem.locate_append_of_accepted {fs : FileSystem} {p : Path} {d : Place}
    {name : String} (hname : Path.Plain name) (hd : fs.locate true p = .ok d)
    (hdir : fs.entryAt d = some .directory) (h : (p.append name).Accepted) :
    fs.locate false (p.append name) = .ok (d ++ [name]) := by
  obtain ⟨hnull, hsize, hlimit⟩ := h
  rw [Path.name_append p hname] at hlimit
  obtain ⟨-, -, hwalk⟩ := locate_eq_ok_iff.mp hd
  refine locate_eq_ok_iff.mpr ⟨by simpa using hnull, hsize, ?_⟩
  rw [Path.append_of_plain p hname]
  exact walk_append_of_directory ⟨hname.ne_dot, hname.ne_dots, Nat.not_lt.mpr hlimit⟩ hwalk hdir

namespace Store

variable {s : Store} {r : Report} {w : Workspace} {fs : FileSystem} {d t : Place}
  {temporary : Path} {bytes : List UInt8} {m first token : Int} {k : Nat}

/-- In a directory with a short path, the path of every token in range is accepted. -/
theorem accepted_reportPath (hsuffix : '/' ∉ s.suffix.toList) (hparts : s.directory.parts ≠ [])
    (hnull : '\x00' ∉ s.directory.text.toList ++ s.suffix.toList)
    (hlimit : tokenWidth + s.suffix.utf8ByteSize ≤ FileSystem.nameLimit)
    (hshort : s.directory.text.utf8ByteSize + FileSystem.nameLimit + 1 < FileSystem.pathLimit)
    (h : 0 ≤ token) (htoken : token < 10 ^ tokenWidth) : (s.reportPath token).Accepted := by
  have hplain := plain_reportName hsuffix token
  have hsize := utf8ByteSize_reportName h htoken s.suffix
  have htext := Path.text_append hparts hplain
  refine ⟨?_, ?_, ?_⟩
  · rw [reportPath, htext]
    simp only [reportName, String.toList_append, List.mem_append, not_or] at hnull ⊢
    exact ⟨⟨hnull.1, by decide⟩, fun hmem ↦ absurd (mem_padded hmem) (by decide), hnull.2⟩
  · rw [reportPath, htext, String.utf8ByteSize_append, String.utf8ByteSize_append, hsize]
    have hslash : "/".utf8ByteSize = 1 := by decide
    omega
  · rw [reportPath, Path.name_append _ hplain, hsize]
    exact hlimit

/-! ## The temporary file is not in the way -/

theorem reportName_ne_temporaryName (token : Int) (suffix : String) (n : Nat) :
    reportName token suffix ≠ temporaryName n := by
  intro h
  obtain ⟨c, cs, hcs⟩ : ∃ c cs, (padded tokenWidth token).toList = c :: cs :=
    List.exists_cons_of_length_pos (Nat.lt_of_lt_of_le (by decide) (length_padded_ge _ _))
  have hmem : c ∈ (padded tokenWidth token).toList := by simp [hcs]
  have hhead := congrArg (List.head? ∘ String.toList) h
  simp only [Function.comp_apply, reportName, temporaryName, String.toList_append, hcs,
    List.cons_append, List.head?_cons] at hhead
  obtain rfl : c = '.' := Option.some.inj hhead
  exact absurd (mem_padded hmem) (by decide)

/-- A write tries names in the directory at `d`, with its temporary file at `t`; the tree without
that file is `fs`. -/
structure Trying (s : Store) (fs : FileSystem) (d : Place) (temporary : Path) (t : Place) :
    Prop where
  suffix : '/' ∉ s.suffix.toList
  place : fs.locate true s.directory = .ok d
  directory : fs.entryAt d = some .directory
  temporary : fs.locate false temporary = .ok t
  free : fs.entryAt t = none
  hidden : ∃ d' n, t = d' ++ [temporaryName n]

theorem trying_of_freeTemporary (hsuffix : '/' ∉ s.suffix.toList)
    (hd : fs.locate true s.directory = .ok d) (hdir : fs.entryAt d = some .directory)
    (htemporary : freeTemporary fs (fs.lexical s.directory) = some temporary)
    (ht : fs.locate false temporary = .ok t) : Trying s fs d temporary t := by
  obtain ⟨n, hn, hfree, -⟩ := freeTemporary_eq fs (fs.lexical s.directory)
  rw [htemporary] at hn
  cases hn
  refine ⟨hsuffix, hd, hdir, ht, by simpa [FileSystem.isTaken, ht] using hfree, ?_⟩
  obtain ⟨-, -, hwalk⟩ := FileSystem.locate_eq_ok_iff.mp ht
  obtain ⟨d', -, hplace | ⟨hfollow, -⟩⟩ := FileSystem.exists_walk_of_append
    (temporaryName_ne_dots n).1 (temporaryName_ne_dots n).2 hwalk
  · exact ⟨d', n, hplace⟩
  · cases hfollow

/-- **An attempt** finds what the directory held before the write. -/
theorem Trying.link (h : Trying s fs d temporary t) (hpath : (s.reportPath token).Accepted)
    (bytes : List UInt8) :
    FileSystem.link (fs.put t (.file bytes)) temporary (s.reportPath token) =
      if reportName token s.suffix ∈ fs.namesIn d then
        .error (.refused .exists (s.reportPath token).text)
      else .ok ((fs.put t (.file bytes)).put (d ++ [reportName token s.suffix]) (.file bytes)) := by
  have hx := FileSystem.extends_put (e := .file bytes) h.free (by simp)
  have hlocate := hx.locate (FileSystem.locate_append_of_accepted
    (plain_reportName h.suffix token) h.place h.directory hpath)
  have hne : d ++ [reportName token s.suffix] ≠ t := by
    obtain ⟨d', n, rfl⟩ := h.hidden
    intro heq
    exact reportName_ne_temporaryName token s.suffix n
      (List.singleton_inj.mp (List.append_inj' heq rfl).2)
  have hentry : FileSystem.entryAt (fs.put t (.file bytes)) (d ++ [reportName token s.suffix])
      = fs.entryAt (d ++ [reportName token s.suffix]) := FileSystem.entryAt_put_of_ne hne
  rw [FileSystem.link, FileSystem.stat_put h.temporary h.free (by simp)]
  simp only [FileSystem.create, reportPath, hlocate, hentry]
  by_cases hmem : reportName token s.suffix ∈ fs.namesIn d
  · obtain ⟨e, he⟩ := Option.isSome_iff_exists.mp (FileSystem.mem_namesIn_iff.mp hmem)
    simp only [if_pos hmem, he]
  · have hnone := hmem
    rw [FileSystem.mem_namesIn_iff, Option.not_isSome_iff_eq_none] at hnone
    simp only [if_neg hmem, hnone]

/-! ## Counting the attempts -/

/-- Names that are taken cost one token each. -/
theorem claim_of_taken (htaken : ∀ j < k, ∃ path,
      w.files.link temporary (s.reportPath (draw (drawn j w)).1)
        = .error (.refused .exists path)) (more : Nat) :
    s.claim temporary (k + more) w
      = ((s.claim temporary more (drawn k w)).1,
        (List.range k).map (fun j ↦ .nameTaken (s.reportPath (draw (drawn j w)).1).name)
          ++ (s.claim temporary more (drawn k w)).2.1,
        (s.claim temporary more (drawn k w)).2.2) := by
  induction k generalizing w with
  | zero =>
    rw [Nat.zero_add]
    rfl
  | succ k ih =>
    obtain ⟨path, hpath⟩ : ∃ path, w.files.link temporary (s.reportPath (draw w).1)
        = .error (.refused .exists path) := htaken 0 (Nat.succ_pos k)
    have hrest := ih (w := (draw w).2) fun j hj ↦ htaken (j + 1) (Nat.succ_lt_succ hj)
    rw [Nat.succ_add, claim_succ, hpath, List.range_succ_eq_map, List.map_cons, List.map_map]
    simp only [hrest]
    rfl

/-- The names that a write finds taken before the `k`-th attempt. -/
def takenBefore (s : Store) (first : Int) (k : Nat) : List Event :=
  (List.range k).map fun (j : Nat) ↦ .nameTaken (reportName (first + j) s.suffix)

/-- Every attempt before the `k`-th finds its name taken. -/
theorem Trying.claim_of_names (h : Trying s fs d temporary t)
    (hfiles : w.files = fs.put t (.file bytes)) (hclock : Standing m k w)
    (hfirst : first = max m (w.lastToken + 1))
    (hpaths : ∀ j < k, (s.reportPath (first + j)).Accepted)
    (hnames : ∀ j < k, reportName (first + j) s.suffix ∈ fs.namesIn d) (more : Nat) :
    s.claim temporary (k + more) w
      = ((s.claim temporary more (drawn k w)).1,
        s.takenBefore first k ++ (s.claim temporary more (drawn k w)).2.1,
        (s.claim temporary more (drawn k w)).2.2) := by
  have htoken (j : Nat) (hj : j < k) : (draw (drawn j w)).1 = first + j := by
    rw [Standing.draw_drawn fun i hi ↦ hclock i (Nat.lt_of_lt_of_le hi hj), hfirst]
  have htaken (j : Nat) (hj : j < k) : ∃ path,
      w.files.link temporary (s.reportPath (draw (drawn j w)).1)
        = .error (.refused .exists path) :=
    ⟨_, by rw [htoken j hj, hfiles, h.link (hpaths j hj), if_pos (hnames j hj)]⟩
  have hevents : s.takenBefore first k = (List.range k).map fun j ↦
      .nameTaken (s.reportPath (draw (drawn j w)).1).name := by
    refine List.map_congr_left fun j hj ↦ ?_
    rw [htoken j (List.mem_range.mp hj), reportPath,
      Path.name_append s.directory (plain_reportName h.suffix _)]
  rw [hevents]
  exact claim_of_taken htaken more

theorem Trying.claim_first (h : Trying s fs d temporary t)
    (hfiles : w.files = fs.put t (.file bytes)) (hclock : Standing m (k + 1) w)
    (hfirst : first = max m (w.lastToken + 1)) (hk : k < claimLimit)
    (hpaths : ∀ j < claimLimit, (s.reportPath (first + j)).Accepted)
    (hfree : reportName (first + k) s.suffix ∉ fs.namesIn d)
    (hnames : ∀ j < k, reportName (first + j) s.suffix ∈ fs.namesIn d) :
    ∃ w', s.claim temporary claimLimit w
        = (.ok (s.reportPath (first + k)), s.takenBefore first k, w') ∧
      w'.lastToken = first + k ∧
      w.files.link temporary (s.reportPath (first + k)) = .ok w'.files := by
  obtain ⟨more, hmore⟩ : ∃ more, claimLimit = k + (more + 1) := ⟨claimLimit - k - 1, by omega⟩
  have htoken : (draw (drawn k w)).1 = first + k := by rw [hclock.draw_drawn, hfirst]
  have hlink := h.link (hpaths k hk) bytes
  rw [if_neg hfree, ← hfiles] at hlink
  rw [hmore, h.claim_of_names hfiles (fun j hj ↦ hclock j (Nat.lt_succ_of_lt hj)) hfirst
    (fun j hj ↦ hpaths j (by omega)) hnames, claim_succ, drawn_files, htoken, hlink]
  exact ⟨_, by rw [List.append_nil], htoken, rfl⟩

theorem Trying.claim_none (h : Trying s fs d temporary t)
    (hfiles : w.files = fs.put t (.file bytes)) (hclock : Standing m claimLimit w)
    (hfirst : first = max m (w.lastToken + 1))
    (hpaths : ∀ j < claimLimit, (s.reportPath (first + j)).Accepted)
    (hnames : ∀ j < claimLimit, reportName (first + j) s.suffix ∈ fs.namesIn d) :
    ∃ w', s.claim temporary claimLimit w
        = (.error s.cannotClaim, s.takenBefore first claimLimit, w') ∧
      w'.lastToken = first + 999 ∧ w'.files = w.files := by
  have hrun := h.claim_of_names hfiles hclock hfirst hpaths hnames 0
  have hlast : (draw (drawn 999 w)).1 = max m (w.lastToken + 1) + 999 := hclock.draw_drawn
  rw [← hfirst] at hlast
  refine ⟨drawn claimLimit w, ?_, ?_, drawn_files _ w⟩
  · simpa only [Nat.add_zero, claim, List.append_nil] using hrun
  · rw [claimLimit, drawn_succ]
    exact hlast

/-! ## Main statement -/

/-- A report can be linked wherever its name is free: a temporary file can be made, and the system
accepts the paths of the tokens that may be tried. -/
structure Linkable (s : Store) (fs : FileSystem) (first : Int) : Prop where
  temporary : ∃ temporary t, freeTemporary fs (fs.lexical s.directory) = some temporary ∧
    fs.locate false temporary = .ok t
  paths : ∀ k < claimLimit, (s.reportPath (first + k)).Accepted

/-- **The first free name.** While the clock stands at `m` milliseconds, which is for as many draws
as there are attempts, a write tries the names of the tokens from the first one on. It saves its
report under the first of a thousand names that nothing in the directory has, and changes nothing
else; if all of them are taken it fails and leaves the tree as it was. The tree `fs` is that in
which the directory has been made. -/
theorem write_first_free (hsuffix : '/' ∉ s.suffix.toList)
    (hmake : w.files.makeDirectories s.directory = (.ok (), fs))
    (hd : fs.locate true s.directory = .ok d) (hfirst : first = max m (w.lastToken + 1))
    (hlink : s.Linkable fs first) :
    (∀ k, IsLeast {k : Nat | k < 1000 ∧ reportName (first + k) s.suffix ∉ fs.namesIn d} k →
      Standing m (k + 1) w → ∃ w', s.write r w = (.ok (s.reportPath (first + k)),
          s.takenBefore first k ++ [.saved r.contract (s.reportPath (first + k)).text], w') ∧
        w'.lastToken = first + k ∧
        w'.files = ⟨fs.entries
          ++ [(d ++ [reportName (first + k) s.suffix], .file (Text.encode r.text))], fs.current⟩) ∧
    ((∀ k : Nat, k < 1000 → reportName (first + k) s.suffix ∈ fs.namesIn d) →
      Standing m 1000 w → ∃ w', s.write r w = (.error (.failure (.write
          ("could not claim a unique report name in " ++ s.directory.text) s.directory.text)),
          s.takenBefore first 1000, w') ∧
        w'.lastToken = first + 999 ∧ w'.files = fs) := by
  obtain ⟨temporary, t, htemporary, ht⟩ := hlink.temporary
  obtain ⟨d', hd', hdir⟩ := FileSystem.stat_eq_ok_iff.mp (FileSystem.stat_of_makeDirectories hmake)
  obtain rfl : d = d' := Except.ok.inj (hd.symm.trans hd')
  have htry := trying_of_freeTemporary hsuffix hd hdir htemporary ht
  let w₁ : Workspace := { w with files := fs.put t (.file (Text.encode r.text)) }
  have hcreate : fs.create temporary (.file (Text.encode r.text)) = .ok w₁.files :=
    FileSystem.create_eq_ok_iff.mpr ⟨t, ht, htry.free, rfl⟩
  constructor
  · rintro k ⟨⟨hk, hfree⟩, hleast⟩ hclock
    have hnames (j : Nat) (hj : j < k) : reportName (first + j) s.suffix ∈ fs.namesIn d := by
      by_contra hnot
      exact Nat.not_le.mpr hj (hleast ⟨Nat.lt_trans hj hk, hnot⟩)
    obtain ⟨w', hclaim, hlast, hlinked⟩ :=
      htry.claim_first (w := w₁) rfl (hclock.with_files _) hfirst hk hlink.paths hfree hnames
    -- the link and the removal together are one new file
    obtain ⟨q, hq, hqfree, hremove⟩ := FileSystem.remove_link_create hcreate hlinked
    obtain rfl : d ++ [reportName (first + k) s.suffix] = q :=
      Except.ok.inj ((FileSystem.locate_append_of_accepted (plain_reportName hsuffix _) hd hdir
        (hlink.paths k hk)).symm.trans hq)
    refine ⟨_, write_of_deposit hmake (deposit_of_claim htemporary hcreate hclaim), hlast, ?_⟩
    rw [hremove, FileSystem.put_of_free hqfree]
  · intro hnames hclock
    obtain ⟨w', hclaim, hlast, hfiles⟩ :=
      htry.claim_none (w := w₁) rfl (hclock.with_files _) hfirst hlink.paths hnames
    refine ⟨_, write_of_deposit_error hmake (deposit_of_claim htemporary hcreate hclaim), hlast, ?_⟩
    rw [hfiles]
    exact FileSystem.remove_create hcreate

/-! ## A crowded directory -/

/-- A directory in which the names of the first `n` tokens from 5 on are taken, the very first by a
directory and the others by links that lead nowhere. -/
def crowd (n : Nat) : FileSystem where
  entries := (["r"], .directory) :: (List.range n).map fun (k : Nat) ↦
    (["r", reportName (5 + k) defaultSuffix], if k = 0 then .directory else .link "nowhere")
  current := []

theorem mem_namesIn_crowd {n : Nat} {name : String} : name ∈ (crowd n).namesIn ["r"] ↔
    ∃ k : Nat, k < n ∧ name = reportName (5 + k) defaultSuffix := by
  simp [crowd, FileSystem.namesIn, FileSystem.nameIn, eq_comm]

theorem locate_crowd (n : Nat) : (crowd n).locate true (.ofString "r") = .ok ["r"] := by cbv

theorem makeDirectories_crowd (n : Nat) :
    (crowd n).makeDirectories (.ofString "r") = (.ok (), crowd n) :=
  FileSystem.makeDirectories_of_stat (FileSystem.stat_eq_ok_iff.mpr ⟨["r"], locate_crowd n, rfl⟩)

theorem linkable_crowd (n : Nat) : Linkable ⟨.ofString "r", defaultSuffix⟩ (crowd n) 5 := by
  have hplace : (crowd n).locate true (FileSystem.pathOf ["r"]) = .ok ["r"] := by cbv
  have hpath : temporaryPath ["r"] 0 = (FileSystem.pathOf ["r"]).append (temporaryName 0) := by
    decide
  have hplain : Path.Plain (temporaryName 0) := ⟨by decide, by decide, by decide, by decide⟩
  have hlocate : (crowd n).locate false (temporaryPath ["r"] 0) = .ok ["r", temporaryName 0] := by
    rw [hpath]
    exact FileSystem.locate_append_of_accepted hplain hplace rfl (by decide)
  have hfree : (crowd n).isTaken (temporaryPath ["r"] 0) = false := by
    rw [FileSystem.isTaken, hlocate]
    refine Bool.eq_false_iff.mpr fun htaken ↦ ?_
    obtain ⟨k, -, hk⟩ := mem_namesIn_crowd.mp (FileSystem.mem_namesIn_iff.mpr htaken)
    exact reportName_ne_temporaryName _ _ _ hk.symm
  obtain ⟨m, hm, -, htaken⟩ := freeTemporary_eq (crowd n) ["r"]
  obtain rfl : m = 0 := by
    by_contra hne
    exact absurd (htaken 0 (Nat.pos_of_ne_zero hne)) (by simp [hfree])
  refine ⟨⟨_, _, hm, hlocate⟩, fun k hk ↦ ?_⟩
  rw [claimLimit] at hk
  refine accepted_reportPath (by decide) (by decide) (by decide) (by decide) (by decide)
    (by omega) ?_
  rw [tokenWidth]
  omega

theorem write_first_free_crowd :
    (∃ events w', write ⟨.ofString "r", defaultSuffix⟩ motley
        { files := crowd 999, clock := 5000000, lastToken := 3 }
          = (.ok (.ofString "r/0000000001004-analysis.json"), events, w') ∧
      w'.lastToken = 1004) ∧
    (∃ events w', write ⟨.ofString "r", defaultSuffix⟩ motley
        { files := crowd 1000, clock := 5000000, lastToken := 3 }
          = (.error (.failure (.write "could not claim a unique report name in r" "r")),
            events, w') ∧
      w'.lastToken = 1004 ∧ w'.files = crowd 1000) := by
  have h (n : Nat) := write_first_free (s := ⟨.ofString "r", defaultSuffix⟩) (r := motley)
    (w := { files := crowd n, clock := 5000000, lastToken := 3 }) (m := 5)
    (by decide) (makeDirectories_crowd n) (locate_crowd n) (show (5 : Int) = max 5 (3 + 1) from rfl)
    (linkable_crowd n)
  have hclock (n k : Nat) :
      Standing 5 k { files := crowd n, clock := 5000000, lastToken := 3 } := fun j _ ↦ by
    rw [clock_drawn rfl]
    rfl
  constructor
  · have hfree : reportName (5 + (999 : Nat)) defaultSuffix ∉ (crowd 999).namesIn ["r"] := by
      intro hmem
      obtain ⟨k, hk, hname⟩ := mem_namesIn_crowd.mp hmem
      exact (reportName_lt (t := 5 + k) (by omega) (by omega) (by decide) _).ne hname.symm
    obtain ⟨w', hwrite, hlast, -⟩ := (h 999).1 999 ⟨⟨by decide, hfree⟩, fun k hk ↦ by
      by_contra hlt
      exact hk.2 (mem_namesIn_crowd.mpr ⟨k, by omega, rfl⟩)⟩ (hclock _ _)
    exact ⟨_, w', hwrite, hlast⟩
  · obtain ⟨w', hwrite, hlast, hfiles⟩ :=
      (h 1000).2 (fun k hk ↦ mem_namesIn_crowd.mpr ⟨k, hk, rfl⟩) (hclock _ _)
    exact ⟨_, w', hwrite, hlast, hfiles⟩

end Store

end QuantumRisk

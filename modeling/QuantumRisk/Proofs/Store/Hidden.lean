import QuantumRisk.Proofs.FileSystem.Hidden
import QuantumRisk.Proofs.Store.Write
import Mathlib.Data.List.Perm.Subperm

/-!
# A write does not look into files

The store looks for names that are free and never at the bytes of what is there. So two workspaces
that differ in hidden bytes get the same report under the same name. The search for a temporary name
depends on the size of the tree, but only to be sure that it ends: there are more names to try than
entries, so one of them is free.
-/

namespace QuantumRisk

/-- Two workspaces are the same but for hidden bytes. -/
structure Workspace.SameBut (hidden : Place → Prop) (w w' : Workspace) : Prop where
  files : w.files.SameBut hidden w'.files
  others : ∃ fs, w' = { w with files := fs }

namespace Store

variable {hidden : Place → Prop} {fs fs' : FileSystem} {w w' : Workspace} {d : Place}

/-! ## Temporary names -/

theorem temporaryName_injective : Function.Injective temporaryName := by
  intro m n h
  rw [temporaryName, temporaryName, String.append_left_inj, String.append_right_inj] at h
  exact Int.ofNat_inj.mp (padded_injective 8 h)

/-- The path of a temporary file. -/
def temporaryPath (d : Place) (n : Nat) : Path := FileSystem.pathOf (d ++ [temporaryName n])

theorem temporaryName_ne_dots (n : Nat) : temporaryName n ≠ "." ∧ temporaryName n ≠ ".." := by
  have hlength : 7 < (temporaryName n).toList.length := by
    have := length_padded_ge 8 n
    simp only [temporaryName, String.toList_append, List.length_append]
    omega
  constructor
  all_goals
    intro h
    rw [h] at hlength
    simp at hlength

/-- Temporary names that are taken are taken by entries of their own. -/
theorem exists_taken (h : fs.isTaken (temporaryPath d 0)) :
    ∃ d', ∀ n, fs.isTaken (temporaryPath d n) → d' ++ [temporaryName n] ∈ fs.entries.map (·.1) := by
  have hplace (n : Nat) (hn : fs.isTaken (temporaryPath d n)) :
      ∃ d', fs.walk true FileSystem.linkLimit [] d = .ok d' ∧
        d' ++ [temporaryName n] ∈ fs.entries.map (·.1) := by
    rw [FileSystem.isTaken] at hn
    split at hn
    · next q hq =>
      obtain ⟨-, -, hwalk⟩ := FileSystem.locate_eq_ok_iff.mp hq
      obtain ⟨d', hd', hor⟩ := FileSystem.exists_walk_of_append (temporaryName_ne_dots n).1
        (temporaryName_ne_dots n).2 hwalk
      have hq : q = d' ++ [temporaryName n] := hor.resolve_right (by simp)
      refine ⟨d', hd', ?_⟩
      by_contra hnot
      rw [hq, FileSystem.entryAt, if_neg (by simp), List.lookup_isSome_iff] at hn
      obtain ⟨e, he, heq⟩ := hn
      exact hnot (List.mem_map.mpr ⟨e, he, (eq_of_beq heq).symm⟩)
    · cases hn
  obtain ⟨d', hd', -⟩ := hplace 0 h
  refine ⟨d', fun n hn ↦ ?_⟩
  obtain ⟨d'', hd'', hmem⟩ := hplace n hn
  rwa [Except.ok.inj (hd'.symm.trans hd'')]

/-- **A temporary name is free.** There are more names than entries. -/
theorem exists_free (fs : FileSystem) (d : Place) :
    ∃ n < fs.entries.length + 1, fs.isTaken (temporaryPath d n) = false := by
  by_contra hall
  simp only [not_exists, not_and, Bool.not_eq_false] at hall
  obtain ⟨d', hd'⟩ := exists_taken (hall 0 (by omega))
  have hnodup :
      ((List.range (fs.entries.length + 1)).map fun n ↦ d' ++ [temporaryName n]).Nodup := by
    refine List.nodup_range.map fun m n h ↦ temporaryName_injective ?_
    simpa using h
  have hsubset : ((List.range (fs.entries.length + 1)).map fun n ↦ d' ++ [temporaryName n])
      ⊆ fs.entries.map (·.1) := by
    intro q hq
    obtain ⟨n, hn, rfl⟩ := List.mem_map.mp hq
    exact hd' n (hall n (List.mem_range.mp hn))
  have hle := (List.subperm_of_subset hnodup hsubset).length_le
  simp only [List.length_map, List.length_range] at hle
  omega

/-- The first free name is taken, whatever the size of the tree. -/
theorem freeTemporary_eq (fs : FileSystem) (d : Place) :
    ∃ n, freeTemporary fs d = some (temporaryPath d n) ∧
      fs.isTaken (temporaryPath d n) = false ∧ ∀ k < n, fs.isTaken (temporaryPath d k) = true := by
  have hfind : freeTemporary fs d = ((List.range (fs.entries.length + 1)).find?
      fun n ↦ !fs.isTaken (temporaryPath d n)).map (temporaryPath d) := List.find?_map ..
  obtain ⟨m, hm, hfree⟩ := exists_free fs d
  have hsome : ((List.range (fs.entries.length + 1)).find?
      fun n ↦ !fs.isTaken (temporaryPath d n)).isSome := by
    rw [List.find?_isSome]
    exact ⟨m, List.mem_range.mpr hm, by simp [hfree]⟩
  obtain ⟨n, hn⟩ := Option.isSome_iff_exists.mp hsome
  obtain ⟨hfree', -, hleast⟩ := List.find?_range_eq_some.mp hn
  exact ⟨n, by rw [hfind, hn]; rfl, by simpa using hfree', by simpa using hleast⟩

theorem freeTemporary_sameBut (h : fs.SameBut hidden fs') (d : Place) :
    freeTemporary fs' d = freeTemporary fs d := by
  obtain ⟨n, hn, hfree, hleast⟩ := freeTemporary_eq fs d
  obtain ⟨n', hn', hfree', hleast'⟩ := freeTemporary_eq fs' d
  rw [hn, hn']
  rcases Nat.lt_trichotomy n n' with hlt | rfl | hlt
  · have := hleast' n hlt
    rw [h.isTaken, hfree] at this
    cases this
  · rfl
  · have := hleast n' hlt
    rw [← h.isTaken, hfree'] at this
    cases this

/-! ## Writing -/

/-- Two actions end in the same way, in workspaces that are the same but for hidden bytes. -/
structure EndsAlike {α : Type} (hidden : Place → Prop) (x x' : α × List Event × Workspace) :
    Prop where
  result : x'.1 = x.1
  events : x'.2.1 = x.2.1
  workspace : x.2.2.SameBut hidden x'.2.2

variable {s : Store} {temporary : Path}

theorem draw_sameBut (h : w.SameBut hidden w') :
    (draw w').1 = (draw w).1 ∧ (draw w).2.SameBut hidden (draw w').2 := by
  obtain ⟨hfiles, fs, rfl⟩ := h
  exact ⟨rfl, hfiles, fs, rfl⟩

/-- The loop over the tokens. The temporary file is not hidden: both workspaces have just got it. -/
theorem claim_sameBut (h : w.SameBut hidden w') {e : Entry}
    (hstat : w.files.stat temporary = .ok e) (hstat' : w'.files.stat temporary = .ok e)
    (attempts : Nat) :
    EndsAlike hidden (s.claim temporary attempts w) (s.claim temporary attempts w') := by
  induction attempts generalizing w w' with
  | zero => exact ⟨rfl, rfl, h⟩
  | succ attempts ih =>
    obtain ⟨htoken, hdraw⟩ := draw_sameBut h
    have hcreate := h.files.create (s.reportPath (draw w).1) e
    have hrest := ih hdraw hstat hstat'
    rw [claim_succ, claim_succ, FileSystem.link, FileSystem.link, hstat, hstat', htoken]
    dsimp only
    generalize w.files.create (s.reportPath (draw w).1) e = made,
      w'.files.create (s.reportPath (draw w).1) e = made' at hcreate
    cases hcreate with
    | ok hfiles =>
      obtain ⟨fs, hfs⟩ := hdraw.others
      exact ⟨rfl, rfl, hfiles, _, by rw [hfs]⟩
    | error fault =>
      cases fault with
      | nullByte | linkLoop | noHome => exact ⟨rfl, rfl, hdraw⟩
      | refused reason path =>
        cases reason with
        | «exists» => exact ⟨hrest.result, by simp only [hrest.events], hrest.workspace⟩
        | _ => exact ⟨rfl, rfl, hdraw⟩

section Deposit

variable {payload : String}

theorem deposit_of_create_error {fault : PathFault}
    (hfree : freeTemporary w.files (w.files.lexical s.directory) = some temporary)
    (hcreate : w.files.create temporary (.file (Text.encode payload)) = .error fault) :
    s.deposit payload w = (.error (faultOf s.cannotWrite fault), [], w) := by
  rw [deposit_eq]
  simp only [hfree, hcreate]

theorem deposit_of_claim {files : FileSystem} {result : Except Fault Path} {events : List Event}
    {w₁ : Workspace} (hfree : freeTemporary w.files (w.files.lexical s.directory) = some temporary)
    (hcreate : w.files.create temporary (.file (Text.encode payload)) = .ok files)
    (hclaim : s.claim temporary claimLimit { w with files } = (result, events, w₁)) :
    s.deposit payload w = (result, events, { w₁ with files := w₁.files.remove temporary }) := by
  rw [deposit_eq]
  simp only [hfree, hcreate, hclaim]

theorem deposit_sameBut (h : w.SameBut hidden w') (payload : String) :
    EndsAlike hidden (s.deposit payload w) (s.deposit payload w') := by
  obtain ⟨hfiles, fs, rfl⟩ := h
  obtain ⟨temporary, hfree⟩ :
      ∃ t, freeTemporary w.files (w.files.lexical s.directory) = some t :=
    ⟨_, (freeTemporary_eq w.files _).choose_spec.1⟩
  have hfree' : freeTemporary fs (fs.lexical s.directory) = some temporary := by
    rw [← hfree, freeTemporary_sameBut hfiles, FileSystem.lexical, hfiles.current]
    rfl
  rcases (hfiles.create temporary (.file (Text.encode payload))).cases with
    ⟨fault, hcreate, hcreate'⟩ | ⟨files, files', hcreate, hcreate', hmade⟩
  · rw [deposit_of_create_error hfree hcreate, deposit_of_create_error hfree' hcreate']
    exact ⟨rfl, rfl, hfiles, fs, rfl⟩
  · have hstat {fs fs₁ : FileSystem}
        (h : fs.create temporary (.file (Text.encode payload)) = .ok fs₁) :
        fs₁.stat temporary = .ok (.file (Text.encode payload)) := by
      obtain ⟨q, hq, hnone, rfl⟩ := FileSystem.create_eq_ok_iff.mp h
      exact FileSystem.stat_put hq hnone (by simp)
    have hclaim : EndsAlike hidden (s.claim temporary claimLimit { w with files })
        (s.claim temporary claimLimit { w with files := files' }) :=
      claim_sameBut ⟨hmade, _, rfl⟩ (hstat hcreate) (hstat hcreate') claimLimit
    rcases hclaimed : s.claim temporary claimLimit { w with files } with ⟨result, events, w₁⟩
    rcases hclaimed' : s.claim temporary claimLimit { w with files := files' } with
      ⟨result', events', w₁'⟩
    rw [hclaimed, hclaimed'] at hclaim
    obtain ⟨hresult, hevents, hfiles₁, fs₁, hfs₁⟩ := hclaim
    obtain rfl : w₁' = { w₁ with files := fs₁ } := hfs₁
    rw [deposit_of_claim hfree hcreate hclaimed, deposit_of_claim hfree' hcreate' hclaimed']
    exact ⟨hresult, hevents, hfiles₁.remove temporary, _, rfl⟩

end Deposit

/-- **A write ends in the same way.** -/
theorem write_sameBut (h : w.SameBut hidden w') (r : Report) :
    EndsAlike hidden (s.write r w) (s.write r w') := by
  obtain ⟨hfiles, fs, rfl⟩ := h
  obtain ⟨hresult, hmade⟩ := hfiles.makeDirectories s.directory
  rw [write, write]
  dsimp only
  generalize w.files.makeDirectories s.directory = outcome,
    fs.makeDirectories s.directory = outcome' at hresult hmade
  obtain ⟨result, files⟩ := outcome
  obtain ⟨result', files'⟩ := outcome'
  obtain rfl : result' = result := hresult
  cases result' with
  | error e => exact ⟨rfl, rfl, hmade, _, rfl⟩
  | ok _ =>
    have hdeposit : EndsAlike hidden (s.deposit r.text { w with files }) (s.deposit r.text
        { w with files := files' }) := deposit_sameBut ⟨hmade, _, rfl⟩ r.text
    dsimp only
    generalize s.deposit r.text { w with files } = deposited,
      s.deposit r.text { w with files := files' } = deposited' at hdeposit
    obtain ⟨result, events, w₁⟩ := deposited
    obtain ⟨result', events', w₁'⟩ := deposited'
    obtain ⟨hresult, hevents, hw₁⟩ := hdeposit
    obtain rfl : result' = result := hresult
    obtain rfl : events' = events := hevents
    cases result' with
    | error e => exact ⟨rfl, rfl, hw₁⟩
    | ok path => exact ⟨rfl, rfl, hw₁⟩

end Store

end QuantumRisk

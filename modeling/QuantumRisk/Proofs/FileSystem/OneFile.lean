import QuantumRisk.Proofs.FileSystem.Actions

/-!
# Changes of one file

Creating a file, writing over it, giving it a second name and removing it each change the tree at
one place, and what is there before and after is a file or nothing. Such a change leaves all ways as
they are: a path leads to a place after it exactly if it did before.
-/

namespace QuantumRisk.FileSystem

variable {fs fs' : FileSystem} {p source : Path} {q q' : Place} {bytes bytes' : List UInt8}

theorem entryAt_erase_self (hq : q ≠ []) : entryAt (fs.erase q) q = none := by
  rw [entryAt, if_neg hq, List.lookup_eq_none_iff]
  intro a ha
  have : a.1 ≠ q := by simpa using (List.mem_filter.mp ha).2
  simpa using this.symm

theorem lookup_filter_of_ne {entries : List (Place × Entry)} (h : q' ≠ q) :
    List.lookup q' (entries.filter fun a ↦ a.1 ≠ q) = List.lookup q' entries := by
  induction entries with
  | nil => rfl
  | cons a entries ih =>
    obtain ⟨r, e⟩ := a
    by_cases hr : r = q
    · have hbeq : (q' == r) = false := beq_eq_false_iff_ne.mpr (hr ▸ h)
      rw [List.filter_cons_of_neg (by simp [hr]), ih, List.lookup_cons, hbeq]
    · rw [List.filter_cons_of_pos (by simp [hr]), List.lookup_cons, List.lookup_cons, ih]

theorem entryAt_erase_of_ne (h : q' ≠ q) : entryAt (fs.erase q) q' = fs.entryAt q' := by
  rw [entryAt, entryAt, erase, lookup_filter_of_ne h]

theorem putEntry_putEntry (q : Place) (e e' : Entry) (entries : List (Place × Entry)) :
    putEntry q e' (putEntry q e entries) = putEntry q e' entries := by
  induction entries with
  | nil => simp [putEntry]
  | cons a entries ih =>
    by_cases h : a.1 = q
    · simp [putEntry, h]
    · simp [putEntry, h, ih]

/-- The last entry that is set counts. -/
theorem put_put (fs : FileSystem) (q : Place) (e e' : Entry) :
    (fs.put q e).put q e' = fs.put q e' := by
  rw [put, put, putEntry_putEntry]
  rfl

/-! ## Trees that differ in one file -/

/-- Two trees differ at most at one place, and in both a file or nothing is there. -/
structure DifferAt (q : Place) (fs fs' : FileSystem) : Prop where
  current : fs'.current = fs.current
  elsewhere : ∀ {p}, p ≠ q → fs'.entryAt p = fs.entryAt p
  before : ∀ {e}, fs.entryAt q = some e → e.isFile = true
  after : ∀ {e}, fs'.entryAt q = some e → e.isFile = true

theorem DifferAt.symm (h : DifferAt q fs fs') : DifferAt q fs' fs where
  current := h.current.symm
  elsewhere hp := (h.elsewhere hp).symm
  before := h.after
  after := h.before

/-- What is no file is where it was. -/
theorem DifferAt.entryAt_of_not_isFile (h : DifferAt q fs fs') {e : Entry} (he : e.isFile = false)
    (hq : fs.entryAt q' = some e) : fs'.entryAt q' = some e := by
  by_cases heq : q' = q
  · subst heq
    rw [h.before hq] at he
    cases he
  · rw [h.elsewhere heq, hq]

theorem DifferAt.keeps (h : DifferAt q fs fs') : Keeps fs fs' :=
  ⟨h.current, h.entryAt_of_not_isFile rfl, h.entryAt_of_not_isFile rfl⟩

/-- **The ways stay as they are.** -/
theorem DifferAt.locate_eq_ok_iff (h : DifferAt q fs fs') {follow : Bool} :
    fs'.locate follow p = .ok q' ↔ fs.locate follow p = .ok q' :=
  ⟨fun hp ↦ locate_of_keeps h.symm.keeps hp fun _ ht ↦ h.entryAt_of_not_isFile rfl ht,
    fun hp ↦ locate_of_keeps h.keeps hp fun _ ht ↦ h.symm.entryAt_of_not_isFile rfl ht⟩

theorem differAt_put (hq : q ≠ []) (h : ∀ {e}, fs.entryAt q = some e → e.isFile = true)
    (bytes : List UInt8) : DifferAt q fs (fs.put q (.file bytes)) where
  current := rfl
  elsewhere hp := entryAt_put_of_ne hp
  before := h
  after he := by
    rw [entryAt_put_self hq] at he
    cases he
    rfl

theorem differAt_erase (hq : q ≠ []) (h : ∀ {e}, fs.entryAt q = some e → e.isFile = true) :
    DifferAt q fs (fs.erase q) where
  current := rfl
  elsewhere hp := entryAt_erase_of_ne hp
  before := h
  after he := by
    rw [entryAt_erase_self hq] at he
    cases he

/-! ## Actions on one file -/

theorem ne_nil_of_file (h : fs.entryAt q = some (.file bytes)) : q ≠ [] := by
  rintro rfl
  simp at h

/-- Only files stand where a file stands. -/
theorem isFile_of_file (h : fs.entryAt q = some (.file bytes)) {e : Entry}
    (he : fs.entryAt q = some e) : e.isFile = true := by
  rw [h] at he
  cases he
  rfl

/-- What a new file changes. -/
theorem differAt_of_create (h : fs.create p (.file bytes) = .ok fs') :
    ∃ q, fs.locate false p = .ok q ∧ fs.entryAt q = none ∧ DifferAt q fs fs' ∧
      fs'.entryAt q = some (.file bytes) := by
  obtain ⟨q, hq, hnone, rfl⟩ := create_eq_ok_iff.mp h
  have hne := ne_nil_of_entryAt_eq_none hnone
  exact ⟨q, hq, hnone, differAt_put hne (by simp [hnone]) bytes, entryAt_put_self hne⟩

theorem stat_of_file (hp : fs.locate false p = .ok q) (hq : fs.entryAt q = some (.file bytes)) :
    fs.stat p = .ok (.file bytes) :=
  stat_eq_ok_iff.mpr ⟨q, locate_follow hp (by simp [hq]), hq⟩

/-- A second name for a file is a new file with its bytes. -/
theorem differAt_of_link (hp : fs.locate false source = .ok q)
    (hq : fs.entryAt q = some (.file bytes)) (h : fs.link source p = .ok fs') :
    ∃ q', fs.locate false p = .ok q' ∧ fs.entryAt q' = none ∧ DifferAt q' fs fs' ∧
      fs'.entryAt q' = some (.file bytes) := by
  obtain ⟨e, he, hcreate⟩ := link_eq_ok_iff.mp h
  rw [stat_of_file hp hq] at he
  cases he
  exact differAt_of_create hcreate

theorem writeFile_of_file (hp : fs.locate false p = .ok q)
    (hq : fs.entryAt q = some (.file bytes)) :
    fs.writeFile p bytes' = .ok (fs.put q (.file bytes')) := by
  rw [writeFile, locate_follow hp (by simp [hq])]
  simp only [hq]

/-- What writing over a file changes. -/
theorem differAt_of_writeFile (hp : fs.locate false p = .ok q)
    (hq : fs.entryAt q = some (.file bytes)) (h : fs.writeFile p bytes' = .ok fs') :
    DifferAt q fs fs' ∧ fs'.entryAt q = some (.file bytes') := by
  rw [writeFile_of_file hp hq] at h
  cases h
  have hne := ne_nil_of_file hq
  exact ⟨differAt_put hne (isFile_of_file hq) bytes', entryAt_put_self hne⟩

/-- What removing a file changes. -/
theorem differAt_remove (hp : fs.locate false p = .ok q)
    (hq : fs.entryAt q = some (.file bytes)) :
    DifferAt q fs (fs.remove p) ∧ FileSystem.entryAt (fs.remove p) q = none := by
  rw [remove_of_locate hp]
  have hne := ne_nil_of_file hq
  exact ⟨differAt_erase hne (isFile_of_file hq), entryAt_erase_self hne⟩

end QuantumRisk.FileSystem

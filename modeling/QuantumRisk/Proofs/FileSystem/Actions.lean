import QuantumRisk.Proofs.FileSystem.Walk

/-!
# What actions do to the tree

Each action is described once by the place it acts on. A tree that only grows, and not by links,
keeps everything that could be read before; `Extends` says so, and all that the library adds to a
tree is of this kind.

Making a directory with its ancestors is the only action of several steps. Whether it succeeds or
not, what it has added are directories that the path names on its way (`MadeOnWay`).
-/

namespace QuantumRisk.FileSystem

variable {fs fs' fs'' : FileSystem} {p source : Path} {q : Place} {e : Entry}

/-! ## Growing trees -/

/-- Every entry is still there, and no link is new. -/
structure Extends (fs fs' : FileSystem) : Prop where
  current : fs'.current = fs.current
  entry : ∀ {q e}, fs.entryAt q = some e → fs'.entryAt q = some e
  link : ∀ {q t}, fs'.entryAt q = some (.link t) → fs.entryAt q = some (.link t)

theorem Extends.refl (fs : FileSystem) : Extends fs fs := ⟨rfl, id, id⟩

theorem Extends.trans (h : Extends fs fs') (h' : Extends fs' fs'') : Extends fs fs'' where
  current := h'.current.trans h.current
  entry hq := h'.entry (h.entry hq)
  link hq := h.link (h'.link hq)

theorem Extends.keeps (h : Extends fs fs') : Keeps fs fs' := ⟨h.current, h.entry, h.entry⟩

theorem Extends.entryAt_eq_none (h : Extends fs fs') (hq : fs'.entryAt q = none) :
    fs.entryAt q = none := by
  cases hold : fs.entryAt q with
  | none => rfl
  | some e =>
    rw [h.entry hold] at hq
    cases hq

theorem extends_put (h : fs.entryAt q = none) (he : ∀ t, e ≠ .link t) :
    Extends fs (fs.put q e) := by
  refine ⟨rfl, fun {q' e'} hq' ↦ ?_, fun {q' t} hq' ↦ ?_⟩
  · have hne : q' ≠ q := by
      rintro rfl
      rw [h] at hq'
      cases hq'
    rw [entryAt_put_of_ne hne, hq']
  · by_cases hq : q' = q
    · subst hq
      rw [entryAt_put_self (ne_nil_of_entryAt_eq_none h)] at hq'
      cases hq'
      exact absurd rfl (he t)
    · rwa [entryAt_put_of_ne hq] at hq'

theorem Extends.locate {follow : Bool} (h : Extends fs fs') (hp : fs.locate follow p = .ok q) :
    fs'.locate follow p = .ok q :=
  locate_of_keeps h.keeps hp fun _ ↦ h.link

/-! ## Asking and reading -/

theorem stat_eq_ok_iff :
    fs.stat p = .ok e ↔ ∃ q, fs.locate true p = .ok q ∧ fs.entryAt q = some e := by
  rw [stat]
  cases hp : fs.locate true p with
  | error fault => simp
  | ok q =>
    cases hq : fs.entryAt q with
    | none => simp [hq]
    | some e' => simp [hq]

theorem Extends.stat (h : Extends fs fs') (hp : fs.stat p = .ok e) : fs'.stat p = .ok e := by
  obtain ⟨q, hq, he⟩ := stat_eq_ok_iff.mp hp
  exact stat_eq_ok_iff.mpr ⟨q, h.locate hq, h.entry he⟩

theorem probe_of_stat {test : Entry → Bool} (h : fs.stat p = .ok e) :
    fs.probe test p = .ok (test e) := by
  rw [probe, h]

theorem stat_of_probe {test : Entry → Bool} (h : fs.probe test p = .ok true) :
    ∃ e, fs.stat p = .ok e ∧ test e = true := by
  rw [probe] at h
  split at h
  · next e he => exact ⟨e, he, Except.ok.inj h⟩
  · split at h
    · cases h
    · cases h
  · cases h

theorem isDirectory_eq_ok_true_iff : fs.isDirectory p = .ok true ↔ fs.stat p = .ok .directory := by
  constructor
  · intro h
    obtain ⟨e, he, htest⟩ := stat_of_probe h
    cases e with
    | directory => exact he
    | file bytes => cases htest
    | link t => cases htest
  · exact fun h ↦ probe_of_stat h

/-! ## Changing one entry -/

theorem create_eq_ok_iff :
    fs.create p e = .ok fs' ↔
      ∃ q, fs.locate false p = .ok q ∧ fs.entryAt q = none ∧ fs' = fs.put q e := by
  rw [create]
  cases hp : fs.locate false p with
  | error fault => simp
  | ok q =>
    cases hq : fs.entryAt q with
    | none => simp [hq, eq_comm]
    | some e' => simp [hq]

/-- What was created is found again. -/
theorem stat_put (hp : fs.locate false p = .ok q) (hq : fs.entryAt q = none)
    (he : ∀ t, e ≠ .link t) : stat (fs.put q e) p = .ok e := by
  have hfollow : fs.locate true p = .ok q := locate_follow hp (by simp [hq])
  have hx : Extends fs (fs.put q e) := extends_put hq he
  exact stat_eq_ok_iff.mpr
    ⟨q, hx.locate hfollow, entryAt_put_self (ne_nil_of_entryAt_eq_none hq)⟩

theorem extends_create (h : fs.create p e = .ok fs') (he : ∀ t, e ≠ .link t) :
    Extends fs fs' := by
  obtain ⟨q, -, hq, rfl⟩ := create_eq_ok_iff.mp h
  exact extends_put hq he

theorem stat_create (h : fs.create p e = .ok fs') (he : ∀ t, e ≠ .link t) :
    fs'.stat p = .ok e := by
  obtain ⟨q, hp, hq, rfl⟩ := create_eq_ok_iff.mp h
  exact stat_put hp hq he

theorem link_eq_ok_iff :
    fs.link source p = .ok fs' ↔ ∃ e, fs.stat source = .ok e ∧ fs.create p e = .ok fs' := by
  rw [FileSystem.link]
  cases fs.stat source with
  | error fault => simp
  | ok e => simp

theorem remove_of_locate (h : fs.locate false p = .ok q) : fs.remove p = fs.erase q := by
  rw [remove, h]

/-! ## Temporary files -/

/-- A new file that is removed again leaves no trace. -/
theorem remove_create {bytes : List UInt8} (h : fs.create p (.file bytes) = .ok fs') :
    fs'.remove p = fs := by
  obtain ⟨q, hq, hnone, rfl⟩ := create_eq_ok_iff.mp h
  have hx : Extends fs (fs.put q (.file bytes)) := extends_put hnone (by simp)
  rw [remove_of_locate (hx.locate hq), erase_put hnone]

/-- **A file that is given a second name and then loses its first** is as if it had been created
under the second name. -/
theorem remove_link_create {bytes : List UInt8} (h : fs.create source (.file bytes) = .ok fs')
    (hlink : fs'.link source p = .ok fs'') :
    ∃ q, fs.locate false p = .ok q ∧ fs.entryAt q = none ∧
      fs''.remove source = fs.put q (.file bytes) := by
  obtain ⟨t, ht, htnone, rfl⟩ := create_eq_ok_iff.mp h
  obtain ⟨e, hstat, hcreate⟩ := link_eq_ok_iff.mp hlink
  rw [stat_put ht htnone (by simp)] at hstat
  cases hstat
  obtain ⟨q, hq, hqnone, rfl⟩ := create_eq_ok_iff.mp hcreate
  have hself : entryAt (fs.put t (.file bytes)) t = some (.file bytes) :=
    entryAt_put_self (ne_nil_of_entryAt_eq_none htnone)
  have hne : q ≠ t := by
    rintro rfl
    rw [hself] at hqnone
    cases hqnone
  have hqnone' : fs.entryAt q = none := by rwa [entryAt_put_of_ne hne] at hqnone
  have hx : Extends fs (fs.put t (.file bytes)) := extends_put htnone (by simp)
  have hx' : Extends _ ((fs.put t (.file bytes)).put q (.file bytes)) :=
    extends_put hqnone (by simp)
  refine ⟨q, locate_of_keeps (put_keeps htnone bytes) hq (by simp [hqnone']), hqnone', ?_⟩
  rw [remove_of_locate (hx'.locate (hx.locate ht)), erase_put_put htnone hqnone' hne]

/-! ## Directories with their ancestors -/

/-- The tree has grown by directories that a path names on its way. -/
structure MadeOnWay (p : Path) (fs fs' : FileSystem) : Prop where
  grown : Extends fs fs'
  added : ∀ {q e}, fs.entryAt q = none → fs'.entryAt q = some e →
    e = .directory ∧ ∃ a, Path.Ancestor a p ∧ fs'.locate true a = .ok q

theorem MadeOnWay.refl (p : Path) (fs : FileSystem) : MadeOnWay p fs fs where
  grown := .refl fs
  added hnone hsome := by
    rw [hnone] at hsome
    cases hsome

theorem MadeOnWay.trans (h : MadeOnWay p fs fs') (h' : MadeOnWay p fs' fs'') :
    MadeOnWay p fs fs'' where
  grown := h.grown.trans h'.grown
  added := by
    intro q e hnone hsome
    cases hmid : fs'.entryAt q with
    | none => exact h'.added hmid hsome
    | some e' =>
      -- the entry came with the first part and has stayed
      have heq : e' = e := by
        have := h'.grown.entry hmid
        rw [hsome] at this
        exact (Option.some.inj this).symm
      subst heq
      obtain ⟨hdir, a, ha, hq⟩ := h.added hnone hmid
      exact ⟨hdir, a, ha, h'.grown.locate hq⟩

/-- The files are those that were there. -/
theorem MadeOnWay.file_iff (h : MadeOnWay p fs fs') {bytes : List UInt8} :
    fs'.entryAt q = some (.file bytes) ↔ fs.entryAt q = some (.file bytes) := by
  refine ⟨fun hnew ↦ ?_, h.grown.entry⟩
  cases hold : fs.entryAt q with
  | none =>
    obtain ⟨hdir, -⟩ := h.added hold hnew
    cases hdir
  | some e => rw [← hnew, h.grown.entry hold]

theorem MadeOnWay.of_parent (h : MadeOnWay p.parent fs fs') : MadeOnWay p fs fs' where
  grown := h.grown
  added hnone hsome := by
    obtain ⟨hdir, a, ha, hq⟩ := h.added hnone hsome
    exact ⟨hdir, a, ha.of_parent, hq⟩

theorem madeOnWay_makeDirectory {disk : Disk} (h : fs.makeDirectory p disk = .ok fs') :
    MadeOnWay p fs fs' := by
  obtain ⟨q, hq, hnone, rfl⟩ := create_eq_ok_iff.mp (Disk.allow_ok h)
  have hx : Extends fs (fs.put q .directory) := extends_put hnone (by simp)
  refine ⟨hx, fun {q' e} hnone' hsome ↦ ?_⟩
  by_cases heq : q' = q
  · subst heq
    rw [entryAt_put_self (ne_nil_of_entryAt_eq_none hnone)] at hsome
    cases hsome
    exact ⟨rfl, p, .refl p, hx.locate (locate_follow hq (by simp [hnone]))⟩
  · rw [entryAt_put_of_ne heq, hnone'] at hsome
    cases hsome

/-- **Only directories on the way are made**, also if making them stops half way. -/
theorem madeOnWay_makeDirectories (p : Path) (fs : FileSystem) (disk : Disk := .willing) :
    MadeOnWay p fs (fs.makeDirectories p disk).2 := by
  fun_induction makeDirectories fs p disk with
  | case1 p fs₁ hmake => exact madeOnWay_makeDirectory hmake
  | case2 p => exact .refl p fs
  | case3 p path hmake hparts hlt fault fs₁ hparent ih =>
    rw [hparent] at ih
    exact ih.of_parent
  | case4 p path hmake hparts hlt fs₁ hparent fs₂ hmake' ih =>
    rw [hparent] at ih
    exact ih.of_parent.trans (madeOnWay_makeDirectory hmake')
  | case5 p path hmake hparts hlt fs₁ hparent fault hmake' ih =>
    rw [hparent] at ih
    exact ih.of_parent
  | case6 p => exact .refl p fs

theorem stat_of_settle {fault : PathFault} (h : fs.settle p fault = .ok ()) :
    fs.stat p = .ok .directory := by
  cases fault with
  | refused reason path =>
    rw [settle] at h
    split at h
    · next hdir => exact isDirectory_eq_ok_true_iff.mp hdir
    · cases h
    · cases h
  | nullByte => cases h
  | linkLoop path => cases h
  | noHome => cases h

/-- If making a directory succeeds it is there. -/
theorem stat_of_makeDirectories {disk : Disk} (h : fs.makeDirectories p disk = (.ok (), fs')) :
    fs'.stat p = .ok .directory := by
  have hmade : ∀ {fs₁ fs₂ : FileSystem} {p : Path}, fs₁.makeDirectory p disk = .ok fs₂ →
      fs₂.stat p = .ok .directory := by
    intro fs₁ fs₂ p hmake
    obtain ⟨q, hq, hnone, rfl⟩ := create_eq_ok_iff.mp (Disk.allow_ok hmake)
    exact stat_put hq hnone (by simp)
  fun_induction makeDirectories fs p disk with
  | case1 p fs₁ hmake =>
    cases h
    exact hmade hmake
  | case2 => cases h
  | case3 => cases h
  | case4 p path hmake hparts hlt fs₁ hparent fs₂ hmake' =>
    cases h
    exact hmade hmake'
  | case5 p path hmake hparts hlt fs₁ hparent fault hmake' =>
    obtain ⟨hsettle, rfl⟩ := Prod.mk.inj h
    exact stat_of_settle hsettle
  | case6 p fault hother hmake =>
    obtain ⟨hsettle, rfl⟩ := Prod.mk.inj h
    exact stat_of_settle hsettle

/-- Where the directory is there, nothing is made. -/
theorem makeDirectories_of_stat (h : fs.stat p = .ok .directory) (disk : Disk := .willing) :
    fs.makeDirectories p disk = (.ok (), fs) := by
  obtain ⟨q, hq, hdir⟩ := stat_eq_ok_iff.mp h
  obtain ⟨q', hq'⟩ := exists_locate_nofollow hq
  have htaken : fs.makeDirectory p disk = .error (.refused .exists p.text) := by
    rw [makeDirectory, create, hq']
    cases hentry : fs.entryAt q' with
    | some e => simp only [hentry, Disk.allow_of_error]
    | none =>
      -- then the path leads to that very place, where the directory is
      have := locate_follow hq' (by simp [hentry])
      rw [hq] at this
      cases this
      rw [hdir] at hentry
      cases hentry
  rw [makeDirectories, htaken]
  simp only [settle, isDirectory_eq_ok_true_iff.mpr h]

end QuantumRisk.FileSystem

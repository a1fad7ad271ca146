import QuantumRisk.Proofs.Store.Writers

/-!
# What concurrent writers leave

The invariant of all sequences of steps: every write has its own files, none of which was there at
the start, they hold what the write has put into them, and nothing else has changed. One lemma says
what an action on one file of one write keeps; the steps are such actions, or change no file.

The main statement is that no entry of the start is lost, that no name with the suffix stands for a
part of a report or for two of them, and that a report stays once its write has returned.
-/

namespace QuantumRisk.Store.Writers

open Relation (ReflTransGen)
open FileSystem (DifferAt)

variable {ι π : Type} {c : Writers ι π} {w w' : World ι π} {fs : FileSystem} {q : Place}

/-! ## The invariant -/

/-- A file of a write lies at a place. -/
def At (c : Writers ι π) (w : World ι π) (h : ι × Role) (q : Place) : Prop :=
  ∃ x, c.file? w h = some x ∧ w.files.locate false x.1 = .ok q

/-- The writes that started from the tree `fs` keep to their own files. -/
structure Orderly (c : Writers ι π) (fs : FileSystem) (w : World ι π) : Prop where
  /-- Every file of a write is there and holds what it should. -/
  held : ∀ {h p bytes}, c.file? w h = some (p, bytes) →
    ∃ q, w.files.locate false p = .ok q ∧ w.files.entryAt q = some (.file bytes)
  /-- No two files of writes are one. -/
  apart : ∀ {h h' q}, c.At w h q → c.At w h' q → h = h'
  /-- The files of writes are new. -/
  fresh : ∀ {h q}, c.At w h q → fs.entryAt q = none ∨ q ∈ w.touched
  /-- Everything else is as it was. -/
  rest : ∀ q, w.files.entryAt q = fs.entryAt q ∨ q ∈ w.touched ∨ ∃ h, c.At w h q
  /-- The names of temporary files. -/
  temporary : ∀ {i x}, c.file? w (i, .temporary) = some x →
    ∃ d name, IsTemporary name ∧ x.1 = FileSystem.pathOf (d ++ [name])

theorem orderly_of_waiting (h : ∀ i, w.stage i = .waiting) : Orderly c w.files w := by
  have hnone : ∀ handle, c.file? w handle = none := by
    intro handle
    rw [file?, h]
    rfl
  refine ⟨?_, ?_, ?_, fun q ↦ .inl rfl, ?_⟩
  · intro handle p bytes hx
    simp [hnone] at hx
  · rintro handle handle' q ⟨x, hx, -⟩
    simp [hnone] at hx
  · rintro handle q ⟨x, hx, -⟩
    simp [hnone] at hx
  · intro i x hx
    simp [hnone] at hx

/-! ## What an action on one file keeps -/

/-- A write makes, changes or removes one of its files, which is at `q`. -/
structure Act (c : Writers ι π) (w w' : World ι π) (own : ι × Role) (q : Place) : Prop where
  differ : DifferAt q w.files w'.files
  touched : w'.touched = w.touched
  others : ∀ {h}, h ≠ own → c.file? w' h = c.file? w h
  place : ∀ {h q'}, c.At w h q' → (q' = q ↔ h = own)
  now : (∃ x, c.file? w' own = some x ∧ w'.files.locate false x.1 = .ok q ∧
    w'.files.entryAt q = some (.file x.2)) ∨ c.file? w' own = none ∧ w'.files.entryAt q = none

namespace Act

variable {own h h' : ι × Role} {q' : Place}

theorem holds (ha : Act c w w' own q) {x : Path × List UInt8} (hx : c.file? w' own = some x) :
    w'.files.locate false x.1 = .ok q ∧ w'.files.entryAt q = some (.file x.2) := by
  rcases ha.now with ⟨x', hx', hnow⟩ | ⟨hnone, -⟩
  · rw [hx] at hx'
    cases hx'
    exact hnow
  · rw [hx] at hnone
    cases hnone

theorem at_own (ha : Act c w w' own q) (hq : c.At w' own q') : q' = q := by
  obtain ⟨x, hx, hq'⟩ := hq
  rw [(ha.holds hx).1] at hq'
  cases hq'
  rfl

theorem at_other (ha : Act c w w' own q) (hne : h ≠ own) : c.At w' h q' ↔ c.At w h q' := by
  simp only [At, ha.others hne, ha.differ.locate_eq_ok_iff]

theorem held (ha : Act c w w' own q) (ho : Orderly c fs w) {p : Path} {bytes : List UInt8}
    (hx : c.file? w' h = some (p, bytes)) :
    ∃ q', w'.files.locate false p = .ok q' ∧ w'.files.entryAt q' = some (.file bytes) := by
  by_cases heq : h = own
  · subst heq
    have hholds := ha.holds hx
    exact ⟨q, hholds⟩
  · rw [ha.others heq] at hx
    obtain ⟨q', hq', hentry⟩ := ho.held hx
    have hne : q' ≠ q := fun hq ↦ heq ((ha.place ⟨_, hx, hq'⟩).mp hq)
    exact ⟨q', ha.differ.locate_eq_ok_iff.mpr hq', by rw [ha.differ.elsewhere hne, hentry]⟩

theorem apart (ha : Act c w w' own q) (ho : Orderly c fs w) (hq : c.At w' h q')
    (hq' : c.At w' h' q') : h = h' := by
  by_cases heq : h = own
  · subst heq
    by_contra hne
    have hold := (ha.at_other (Ne.symm hne)).mp hq'
    exact hne ((ha.place hold).mp (ha.at_own hq)).symm
  · by_cases heq' : h' = own
    · subst heq'
      exact (ha.place ((ha.at_other heq).mp hq)).mp (ha.at_own hq')
    · exact ho.apart ((ha.at_other heq).mp hq) ((ha.at_other heq').mp hq')

theorem rest (ha : Act c w w' own q) (ho : Orderly c fs w)
    (hfresh : fs.entryAt q = none ∨ q ∈ w.touched) (q' : Place) :
    w'.files.entryAt q' = fs.entryAt q' ∨ q' ∈ w'.touched ∨ ∃ h, c.At w' h q' := by
  rw [ha.touched]
  by_cases hq : q' = q
  · subst hq
    rcases ha.now with ⟨x, hx, hq', -⟩ | ⟨-, hgone⟩
    · exact .inr (.inr ⟨own, x, hx, hq'⟩)
    · rcases hfresh with hfresh | hfresh
      · exact .inl (by rw [hgone, hfresh])
      · exact .inr (.inl hfresh)
  · rcases ho.rest q' with hsame | hold | ⟨h, hh⟩
    · exact .inl (by rw [ha.differ.elsewhere hq, hsame])
    · exact .inr (.inl hold)
    · have hne : h ≠ own := fun heq ↦ hq ((ha.place hh).mpr heq)
      exact .inr (.inr ⟨h, (ha.at_other hne).mpr hh⟩)

theorem orderly (ha : Act c w w' own q) (ho : Orderly c fs w)
    (hfresh : fs.entryAt q = none ∨ q ∈ w.touched)
    (htemporary : ∀ {x}, own.2 = .temporary → c.file? w' own = some x →
      ∃ d name, IsTemporary name ∧ x.1 = FileSystem.pathOf (d ++ [name])) :
    Orderly c fs w' := by
  refine ⟨ha.held ho, ha.apart ho, ?_, ha.rest ho hfresh, ?_⟩
  · intro h q' hq
    rw [ha.touched]
    by_cases heq : h = own
    · subst heq
      rw [ha.at_own hq]
      exact hfresh
    · exact ho.fresh ((ha.at_other heq).mp hq)
  · intro i x hx
    by_cases heq : (i, Role.temporary) = own
    · subst heq
      exact htemporary rfl hx
    · rw [ha.others heq] at hx
      exact ho.temporary hx

end Act

section Kinds

variable {own : ι × Role} {p : Path} {bytes bytes' : List UInt8}

/-- Only the file of a write stands at its place. -/
theorem Orderly.eq_iff (ho : Orderly c fs w) (hat : c.At w own q) {h : ι × Role} {q' : Place}
    (hq' : c.At w h q') : q' = q ↔ h = own := by
  constructor
  · rintro rfl
    exact ho.apart hq' hat
  · rintro rfl
    obtain ⟨x, hx, hq⟩ := hat
    obtain ⟨x', hx', hq'⟩ := hq'
    rw [hx] at hx'
    cases hx'
    rw [hq] at hq'
    cases hq'
    rfl

/-- A new file, at a place where nothing was. -/
theorem Orderly.gain (ho : Orderly c fs w) (hold : c.file? w own = none)
    (hp : w.files.locate false p = .ok q) (hfree : w.files.entryAt q = none)
    (hdiffer : DifferAt q w.files w'.files) (hentry : w'.files.entryAt q = some (.file bytes))
    (hnew : c.file? w' own = some (p, bytes)) (htouched : w'.touched = w.touched)
    (hothers : ∀ {h}, h ≠ own → c.file? w' h = c.file? w h)
    (htemporary : own.2 = .temporary →
      ∃ d name, IsTemporary name ∧ p = FileSystem.pathOf (d ++ [name])) : Orderly c fs w' := by
  have hnobody : ∀ h, ¬ c.At w h q := by
    rintro h ⟨x, hx, hq⟩
    obtain ⟨q', hq', hheld⟩ := ho.held hx
    rw [hq] at hq'
    cases hq'
    rw [hfree] at hheld
    cases hheld
  have ha : Act c w w' own q := by
    refine ⟨hdiffer, htouched, hothers, ?_, .inl ⟨_, hnew, hdiffer.locate_eq_ok_iff.mpr hp, hentry⟩⟩
    intro h q' hh
    constructor
    · rintro rfl
      exact absurd hh (hnobody h)
    · rintro rfl
      obtain ⟨x, hx, -⟩ := hh
      rw [hold] at hx
      cases hx
  refine ha.orderly ho ?_ ?_
  · rcases ho.rest q with hsame | hold | ⟨h, hh⟩
    · exact .inl (hsame ▸ hfree)
    · exact .inr hold
    · exact absurd hh (hnobody h)
  · intro x hrole hx
    rw [hnew] at hx
    cases hx
    exact htemporary hrole

/-- A file gets other bytes. -/
theorem Orderly.change (ho : Orderly c fs w) (hold : c.file? w own = some (p, bytes))
    (hp : w.files.locate false p = .ok q) (hdiffer : DifferAt q w.files w'.files)
    (hentry : w'.files.entryAt q = some (.file bytes'))
    (hnew : c.file? w' own = some (p, bytes')) (htouched : w'.touched = w.touched)
    (hothers : ∀ {h}, h ≠ own → c.file? w' h = c.file? w h) : Orderly c fs w' := by
  have hat : c.At w own q := ⟨_, hold, hp⟩
  have ha : Act c w w' own q := ⟨hdiffer, htouched, hothers, ho.eq_iff hat,
    .inl ⟨_, hnew, hdiffer.locate_eq_ok_iff.mpr hp, hentry⟩⟩
  refine ha.orderly ho (ho.fresh hat) ?_
  intro x hrole hx
  obtain ⟨i, role⟩ := own
  cases hrole
  rw [hnew] at hx
  cases hx
  obtain ⟨d, name, hname⟩ := ho.temporary hold
  exact ⟨d, name, hname⟩

/-- A file is removed. -/
theorem Orderly.lose (ho : Orderly c fs w) (hat : c.At w own q)
    (hdiffer : DifferAt q w.files w'.files) (hentry : w'.files.entryAt q = none)
    (hnew : c.file? w' own = none) (htouched : w'.touched = w.touched)
    (hothers : ∀ {h}, h ≠ own → c.file? w' h = c.file? w h) : Orderly c fs w' := by
  have ha : Act c w w' own q :=
    ⟨hdiffer, htouched, hothers, ho.eq_iff hat, .inr ⟨hnew, hentry⟩⟩
  exact ha.orderly ho (ho.fresh hat) fun _ hx ↦ by simp [hnew] at hx

/-- A step that changes no file. -/
theorem Orderly.idle (ho : Orderly c fs w) (hfiles : w'.files = w.files)
    (htouched : w'.touched = w.touched) (hsame : ∀ h, c.file? w' h = c.file? w h) :
    Orderly c fs w' := by
  have hat : ∀ {h q'}, c.At w' h q' ↔ c.At w h q' := by
    intro h q'
    rw [At, At, hsame, hfiles]
  refine ⟨?_, ?_, ?_, ?_, ?_⟩
  · intro h p bytes hx
    rw [hsame] at hx
    rw [hfiles]
    exact ho.held hx
  · intro h h' q' hq hq'
    exact ho.apart (hat.mp hq) (hat.mp hq')
  · intro h q' hq
    rw [htouched]
    exact ho.fresh (hat.mp hq)
  · intro q'
    rw [hfiles, htouched]
    simpa only [hat] using ho.rest q'
  · intro i x hx
    rw [hsame] at hx
    exact ho.temporary hx

/-- Another program acts on a file that is of no write. -/
theorem Orderly.other {files : FileSystem} (ho : Orderly c fs w)
    (hdiffer : DifferAt q w.files files)
    (hfree : ∀ h x, c.file? w h = some x → w.files.locate false x.1 ≠ .ok q) :
    Orderly c fs { w with files, touched := q :: w.touched } := by
  have hat : ∀ {h q'}, c.At { w with files, touched := q :: w.touched } h q' ↔ c.At w h q' := by
    intro h q'
    simp only [At, hdiffer.locate_eq_ok_iff]
    rfl
  refine ⟨?_, ?_, ?_, ?_, ho.temporary⟩
  · intro h p bytes hx
    obtain ⟨q', hq', hheld⟩ := ho.held hx
    have hne : q' ≠ q := by
      rintro rfl
      exact hfree h (p, bytes) hx hq'
    exact ⟨q', hdiffer.locate_eq_ok_iff.mpr hq', by rw [hdiffer.elsewhere hne, hheld]⟩
  · intro h h' q' hq hq'
    exact ho.apart (hat.mp hq) (hat.mp hq')
  · intro h q' hq
    exact (ho.fresh (hat.mp hq)).imp_right (List.mem_cons_of_mem q)
  · intro q'
    by_cases hq : q' = q
    · exact .inr (.inl (hq ▸ List.mem_cons_self))
    · rcases ho.rest q' with hsame | hold | ⟨h, hh⟩
      · exact .inl (by rw [hdiffer.elsewhere hq, hsame])
      · exact .inr (.inl (List.mem_cons_of_mem q hold))
      · exact .inr (.inr ⟨h, hat.mpr hh⟩)

end Kinds

/-! ## Steps and runs -/

section Runs

variable [DecidableEq ι] {i : ι} {stage : Stage} {role : Role} {files : FileSystem}

@[simp] theorem file?_goOn_self :
    c.file? (w.goOn i stage) (i, role) = stage.file? (c.payload i) role := by
  rw [file?, World.goOn_stage]

/-- A file that stays when one write goes on. -/
theorem file?_goOn {h : ι × Role} (hsame : h.1 = i →
      stage.file? (c.payload i) h.2 = (w.stage i).file? (c.payload i) h.2) :
    c.file? ({ w with files }.goOn i stage) h = c.file? w h := by
  obtain ⟨j, r⟩ := h
  by_cases hj : j = i
  · subst hj
    rw [file?_goOn_self]
    exact hsame rfl
  · rw [file?, World.goOn_stage_of_ne _ i stage hj]
    rfl

/-- All but one file of one write stay, when it keeps its other file. -/
theorem file?_goOn_of_ne
    (hother : stage.file? (c.payload i) role.other = (w.stage i).file? (c.payload i) role.other)
    {h : ι × Role} (hne : h ≠ (i, role)) :
    c.file? ({ w with files }.goOn i stage) h = c.file? w h := by
  refine file?_goOn fun hi ↦ ?_
  rw [Role.eq_other fun hrole ↦ hne (Prod.ext hi hrole), hother]

/-- A stage with the same files. -/
theorem Orderly.goOn (ho : Orderly c fs w)
    (hsame : ∀ r, stage.file? (c.payload i) r = (w.stage i).file? (c.payload i) r) :
    Orderly c fs (w.goOn i stage) :=
  ho.idle rfl rfl fun h ↦ file?_goOn fun _ ↦ hsame h.2

/-- The temporary file is removed. -/
theorem Orderly.discard (ho : Orderly c fs w) {t : Path} {bytes : List UInt8}
    (hold : c.file? w (i, .temporary) = some (t, bytes))
    (hnew : stage.file? (c.payload i) .temporary = none)
    (hreport : stage.file? (c.payload i) .report = (w.stage i).file? (c.payload i) .report) :
    Orderly c fs ({ w with files := w.files.remove t }.goOn i stage) := by
  obtain ⟨q, hq, hheld⟩ := ho.held hold
  obtain ⟨hdiffer, hentry⟩ := FileSystem.differAt_remove hq hheld
  exact ho.lose ⟨_, hold, hq⟩ hdiffer hentry (file?_goOn_self.trans hnew) rfl
    (file?_goOn_of_ne hreport)

variable [DecidableEq π]

/-- **One step** keeps the invariant. -/
theorem Orderly.step (ho : Orderly c fs w) (hstep : c.Step w w') : Orderly c fs w' := by
  cases hstep with
  | @create i name files hstage hname hfiles =>
    have hold : c.file? w (i, .temporary) = none := by rw [file?, hstage]; rfl
    obtain ⟨q, hq, hfree, hdiffer, hentry⟩ := FileSystem.differAt_of_create hfiles
    exact ho.gain hold hq hfree hdiffer hentry file?_goOn_self rfl
      (file?_goOn_of_ne (by rw [hstage]; rfl)) fun _ ↦ ⟨_, name, hname, rfl⟩
  | @fill i t written more files hstage hpart hfiles =>
    have hold : c.file? w (i, .temporary) = some (t, written) := by rw [file?, hstage]; rfl
    obtain ⟨q, hq, hheld⟩ := ho.held hold
    obtain ⟨hdiffer, hentry⟩ := FileSystem.differAt_of_writeFile hq hheld hfiles
    exact ho.change hold hq hdiffer hentry file?_goOn_self rfl
      (file?_goOn_of_ne (by rw [hstage]; rfl))
  | @link i t n token files hstage hfiles =>
    have htemporary : c.file? w (i, .temporary) = some (t, c.payload i) := by
      rw [file?, hstage]
      rfl
    have hold : c.file? w (i, .report) = none := by rw [file?, hstage]; rfl
    have hnew : c.file? ({ w with files }.goOn i (.named t (c.store.reportPath token))) (i, .report)
        = some (c.store.reportPath token, c.payload i) := file?_goOn_self
    obtain ⟨q, hq, hheld⟩ := ho.held htemporary
    -- the report gets what the temporary file holds, which is all of it
    obtain ⟨q', hq', hfree, hdiffer, hentry⟩ := FileSystem.differAt_of_link hq hheld hfiles
    exact ho.gain hold hq' hfree hdiffer hentry hnew rfl
      (file?_goOn_of_ne (by rw [hstage]; rfl)) (by simp)
  | @finish i t p hstage =>
    have hold : c.file? w (i, .temporary) = some (t, c.payload i) := by rw [file?, hstage]; rfl
    exact ho.discard hold rfl (by rw [hstage]; rfl)
  | @cleanUp i t written hstage =>
    have hold : c.file? w (i, .temporary) = some (t, written) := by rw [file?, hstage]; rfl
    exact ho.discard hold rfl (by rw [hstage]; rfl)
  | @draw i t n ns hstage =>
    have hdrawn : Orderly c fs (w.draw (c.process i) ns) := ho.idle rfl rfl fun _ ↦ rfl
    have hstage' : (w.draw (c.process i) ns).stage i = .claiming t (n + 1) := hstage
    exact hdrawn.goOn (by rw [hstage']; rintro (_ | _) <;> rfl)
  | other hfiles hfree => exact ho.other hfiles hfree
  | cannotCreate hstage => exact ho.goOn (by rw [hstage]; rintro (_ | _) <;> rfl)
  | cannotFill hstage => exact ho.goOn (by rw [hstage]; rintro (_ | _) <;> rfl)
  | close hstage => exact ho.goOn (by rw [hstage]; rintro (_ | _) <;> rfl)
  | taken hstage _ => exact ho.goOn (by rw [hstage]; rintro (_ | _) <;> rfl)
  | cannotLink hstage _ _ => exact ho.goOn (by rw [hstage]; rintro (_ | _) <;> rfl)
  | giveUp hstage => exact ho.goOn (by rw [hstage]; rintro (_ | _) <;> rfl)

/-- **A run** keeps the invariant. -/
theorem Orderly.run (ho : Orderly c fs w) (hrun : c.Run w w') : Orderly c fs w' := by
  induction hrun with
  | refl => exact ho
  | tail _ hstep ih => exact ih.step hstep

/-- A write that has returned takes no further step. -/
theorem Step.returned {p : Path} (hstep : c.Step w w') (hp : w.stage i = .returned p) :
    w'.stage i = .returned p := by
  have hgoOn : ∀ {w' : World ι π} {j : ι} {stage : Stage}, w'.stage = w.stage →
      (∀ p, w.stage j ≠ .returned p) → (w'.goOn j stage).stage i = .returned p := by
    intro w' j stage hsame hj
    have hne : i ≠ j := by
      rintro rfl
      exact hj p hp
    rw [World.goOn_stage_of_ne w' j stage hne, hsame, hp]
  cases hstep with
  | other _ _ => exact hp
  | create hstage _ _ | cannotCreate hstage | fill hstage _ _ | cannotFill hstage | close hstage
  | draw _ hstage | link hstage _ | taken hstage _ | cannotLink hstage _ _ | giveUp hstage
  | finish hstage | cleanUp hstage => exact hgoOn rfl (by simp [hstage])

theorem Run.returned {p : Path} (hrun : c.Run w w') (hp : w.stage i = .returned p) :
    w'.stage i = .returned p := by
  induction hrun with
  | refl => exact hp
  | tail _ hstep ih => exact hstep.returned ih

end Runs

/-! ## The places of temporary files -/

theorem ne_dots_of_isTemporary {name : String} (h : IsTemporary name) :
    name ≠ "." ∧ name ≠ ".." := by
  obtain ⟨middle, -, rfl⟩ := h
  constructor <;>
  · intro heq
    have hlength := congrArg String.length heq
    simp only [String.length_append] at hlength
    have hdot : ".".length = 1 := rfl
    have hend : ".tmp".length = 4 := rfl
    have hdots : "..".length = 2 := rfl
    omega

/-- A temporary file lies under its own name. -/
theorem Orderly.place_of_temporary (ho : Orderly c fs w) {i : ι} (hat : c.At w (i, .temporary) q) :
    ∃ d name, IsTemporary name ∧ q = d ++ [name] := by
  obtain ⟨x, hx, hq⟩ := hat
  obtain ⟨d, name, hname, hpath⟩ := ho.temporary hx
  obtain ⟨hdot, hdots⟩ := ne_dots_of_isTemporary hname
  rw [hpath] at hq
  obtain ⟨-, -, hwalk⟩ := FileSystem.locate_eq_ok_iff.mp hq
  obtain ⟨d', -, hplace | ⟨hfollow, -⟩⟩ := FileSystem.exists_walk_of_append hdot hdots hwalk
  · exact ⟨d', name, hname, hplace⟩
  · cases hfollow

/-! ## Main statement -/

/-- A write has given its report a name, and the file is at a place. -/
def SavedAt (c : Writers ι π) (w : World ι π) (i : ι) (q : Place) : Prop := c.At w (i, .report) q

/-- A saved file holds the whole report. -/
theorem Orderly.entryAt_of_savedAt (ho : Orderly c fs w) {i : ι} (hq : c.SavedAt w i q) :
    w.files.entryAt q = some (.file (c.payload i)) := by
  obtain ⟨x, hx, hq⟩ := hq
  obtain ⟨q', hq', hheld⟩ := ho.held hx
  rw [hq] at hq'
  cases hq'
  rw [hheld, Stage.payload_of_report hx]

theorem Orderly.stat_of_returned (ho : Orderly c fs w) {i : ι} {p : Path}
    (hp : w.stage i = .returned p) : w.files.stat p = .ok (.file (c.payload i)) := by
  have hx : c.file? w (i, .report) = some (p, c.payload i) := by rw [file?, hp]; rfl
  obtain ⟨q, hq, hheld⟩ := ho.held hx
  exact FileSystem.stat_of_file hq hheld

/-- A new entry under a name that is not one of a temporary file is a saved report. -/
theorem Orderly.savedAt_of_new (ho : Orderly c fs w) {d : Place} {name : String} {e : Entry}
    (hold : fs.entryAt (d ++ [name]) = none) (hnew : w.files.entryAt (d ++ [name]) = some e)
    (htouched : d ++ [name] ∉ w.touched) (hname : ¬ IsTemporary name) :
    ∃ i, c.SavedAt w i (d ++ [name]) := by
  rcases ho.rest (d ++ [name]) with hsame | htouched' | ⟨⟨i, role⟩, hat⟩
  · rw [hsame, hold] at hnew
    cases hnew
  · exact absurd htouched' htouched
  · cases role with
    | report => exact ⟨i, hat⟩
    | temporary =>
      obtain ⟨d', name', hname', hplace⟩ := ho.place_of_temporary hat
      obtain rfl : name = name' := by simpa using (List.append_inj' hplace rfl).2
      exact absurd hname' hname

variable [DecidableEq ι] [DecidableEq π]

/-- **Concurrent writers** lose nothing and show nothing unfinished. In every state of any number of
writes, whatever their order and wherever they stop: what was there at the start is unchanged; a new
entry whose name has the suffix holds the whole report of exactly one write; no two writes have the
same file; and the file of a write that has returned stays. The states after writes that nobody
interrupts are among them. -/
theorem concurrent_writes {start : World ι π}
    (hsuffix : ∀ name, IsTemporary name → c.store.hasSuffix name = false)
    (hwaiting : ∀ i, start.stage i = .waiting) (hrun : c.Run start w) :
    (∀ q e, start.files.entryAt q = some e → q ∉ w.touched → w.files.entryAt q = some e) ∧
    (∀ d name e, start.files.entryAt (d ++ [name]) = none →
      w.files.entryAt (d ++ [name]) = some e → d ++ [name] ∉ w.touched →
      c.store.hasSuffix name = true →
      ∃! i, c.SavedAt w i (d ++ [name]) ∧ e = .file (Text.encode (c.report i).text)) ∧
    (∀ i j q, c.SavedAt w i q → c.SavedAt w j q → i = j) ∧
    (∀ i p, w.stage i = .returned p → ∀ later, c.Run w later →
      later.stage i = .returned p ∧
        later.files.stat p = .ok (.file (Text.encode (c.report i).text))) ∧
    (∀ i before result events after, c.store.write (c.report i) before = (result, events, after) →
      w.stage i = .waiting → w.files.stat c.store.directory = .ok .directory →
      before.files = w.files → before.lastToken = w.lastToken (c.process i) →
      c.Run start
        ((w.settle (c.process i) after.files after.lastToken).goOn i (.ended result))) := by
  have ho : Orderly c start.files w := (orderly_of_waiting hwaiting).run hrun
  have hapart : ∀ i j q, c.SavedAt w i q → c.SavedAt w j q → i = j := by
    intro i j q hi hj
    exact congrArg Prod.fst (ho.apart hi hj)
  refine ⟨?_, ?_, hapart, ?_, ?_⟩
  · intro q e hq htouched
    rcases ho.rest q with hsame | htouched' | ⟨h, hat⟩
    · rw [hsame, hq]
    · exact absurd htouched' htouched
    · -- the files of writes are new
      rcases ho.fresh hat with hnone | htouched'
      · rw [hq] at hnone
        cases hnone
      · exact absurd htouched' htouched
  · intro d name e hold hnew htouched hname
    have htemporary : ¬ IsTemporary name := by
      intro h
      rw [hsuffix name h] at hname
      cases hname
    obtain ⟨i, hi⟩ := ho.savedAt_of_new hold hnew htouched htemporary
    have he := ho.entryAt_of_savedAt hi
    rw [hnew, payload] at he
    exact ⟨i, ⟨hi, Option.some.inj he⟩, fun j hj ↦ hapart j i _ hj.1 hi⟩
  · intro i p hp later hlater
    have hp' := hlater.returned hp
    have hstat := (ho.run hlater).stat_of_returned hp'
    rw [payload] at hstat
    exact ⟨hp', hstat⟩
  · intro i before result events after hwrite hstage hdirectory hfiles hlast
    exact hrun.trans (write_is_run hwrite hdirectory hstage hfiles hlast)

/-! ## Two processes with one clock -/

/-- Temporary names do not have the usual suffix. -/
theorem hasSuffix_of_isTemporary (directory : Path) {name : String} (h : IsTemporary name) :
    hasSuffix ⟨directory, defaultSuffix⟩ name = false := by
  obtain ⟨middle, -, rfl⟩ := h
  rw [hasSuffix, Bool.eq_false_iff]
  intro hsuffix
  obtain ⟨before, hbefore⟩ := List.isSuffixOf_iff_suffix.mp hsuffix
  have hlast := congrArg List.getLast? hbefore
  rw [String.toList_append, List.getLast?_append, List.getLast?_append] at hlast
  simp [defaultSuffix] at hlast

/-- Two processes that write one report each. -/
def rivals (first second : Report) : Writers Bool Bool where
  store := ⟨.ofString "r", defaultSuffix⟩
  report := fun i ↦ bif i then second else first
  process := id

/-- A report directory with some files in it. -/
def shelf (files : List (Place × Entry)) : FileSystem where
  entries := (["r"], .directory) :: files
  current := []

theorem write_shelf (bytes : List UInt8) (r : Report) : ∃ events,
    write ⟨.ofString "r", defaultSuffix⟩ r
        { files := shelf [(["r", ".00000000.tmp"], .file bytes)], clock := 5000000 }
      = (.ok (.ofString "r/0000000000005-analysis.json"), events,
        { files := shelf [(["r", ".00000000.tmp"], .file bytes),
            (["r", "0000000000005-analysis.json"], .file (Text.encode r.text))]
          clock := 5000000, lastToken := 5 }) := by
  let s : Store := ⟨.ofString "r", defaultSuffix⟩
  let fs : FileSystem := shelf [(["r", ".00000000.tmp"], .file bytes)]
  let w : Workspace := { files := fs, clock := 5000000 }
  have hdraw : draw w = (5, { files := fs, clock := 5000000, lastToken := 5 }) := by cbv
  have hpath : s.reportPath 5 = .ofString "r/0000000000005-analysis.json" := by cbv
  have hready : s.Ready w fs (.ofString "/r/.00000001.tmp") ["r", ".00000001.tmp"]
      ["r", "0000000000005-analysis.json"] :=
    ⟨by cbv, by cbv, by cbv, by cbv, by cbv, by decide⟩
  have h : s.write r w = _ := write_of_ready (by cbv) hready
  rw [FileSystem.put_of_free hready.free, hdraw, hpath] at h
  exact ⟨_, h⟩

/-- Nobody has begun to write. -/
def atRest (files : List (Place × Entry)) : World Bool Bool where
  files := shelf files
  lastToken := fun _ ↦ 0
  stage := fun _ ↦ .waiting
  touched := []

/-- The second process is about to try the name of its token. -/
def aboutToLink (bytes : List UInt8) : World Bool Bool where
  files := shelf [(["r", ".00000000.tmp"], .file bytes)]
  lastToken := fun i ↦ bif i then 5 else 0
  stage := fun i ↦ bif i then .naming (.ofString "/r/.00000000.tmp") 999 5 else .waiting
  touched := []

theorem draw_goOn_eq_aboutToLink (bytes : List UInt8) :
    (((atRest [(["r", ".00000000.tmp"], .file bytes)]).goOn true
        (.claiming (.ofString "/r/.00000000.tmp") 1000)).draw true 5000000).goOn true
          (.naming (.ofString "/r/.00000000.tmp") 999 5) = aboutToLink bytes := by
  ext1
  · rfl
  · funext i
    cases i <;> cbv
  · funext i
    cases i <;> cbv
  · rfl

theorem run_aboutToLink (first second : Report) :
    (rivals first second).Run (atRest []) (aboutToLink ((rivals first second).payload true)) := by
  have htemporary : (rivals first second).temporaryPath (atRest []).files ".00000000.tmp"
      = .ofString "/r/.00000000.tmp" := by cbv
  have hname : IsTemporary ".00000000.tmp" := ⟨"00000000", by decide, rfl⟩
  have hcreate : ∀ bytes, (shelf []).create (.ofString "/r/.00000000.tmp") (.file bytes)
      = .ok (shelf [(["r", ".00000000.tmp"], .file bytes)]) := by
    intro bytes
    cbv
  have hfilled : (rivals first second).Run (atRest []) _ :=
    create_is_run rfl hname (htemporary.symm ▸ hcreate ((rivals first second).payload true))
  rw [htemporary] at hfilled
  refine hfilled.tail ?_
  rw [← draw_goOn_eq_aboutToLink]
  exact .draw 5000000 (World.goOn_stage ..)

/-- The first process has taken that name. -/
def overtaken (bytes bytes' : List UInt8) : World Bool Bool where
  files := shelf [(["r", ".00000000.tmp"], .file bytes'),
    (["r", "0000000000005-analysis.json"], .file bytes)]
  lastToken := fun _ ↦ 5
  stage := fun i ↦ bif i then .naming (.ofString "/r/.00000000.tmp") 999 5
    else .returned (.ofString "r/0000000000005-analysis.json")
  touched := []

theorem run_overtaken (first second : Report) :
    (rivals first second).Run (aboutToLink ((rivals first second).payload true))
      (overtaken ((rivals first second).payload false) ((rivals first second).payload true)) := by
  obtain ⟨events, hwrite⟩ := write_shelf ((rivals first second).payload true) first
  have hdirectory : ∀ bytes, (aboutToLink bytes).files.stat (.ofString "r") = .ok .directory := by
    intro bytes
    cbv
  have hrun : (rivals first second).Run (aboutToLink ((rivals first second).payload true)) _ :=
    write_is_run (i := false) hwrite (hdirectory _) rfl rfl rfl
  convert hrun using 1
  ext1
  · rfl
  · funext i
    cases i <;> rfl
  · funext i
    cases i <;> rfl
  · rfl

/-- The second process has given its report the next name, and stops. -/
def stopped (bytes bytes' : List UInt8) : World Bool Bool where
  files := shelf [(["r", ".00000000.tmp"], .file bytes'),
    (["r", "0000000000005-analysis.json"], .file bytes),
    (["r", "0000000000006-analysis.json"], .file bytes')]
  lastToken := fun i ↦ bif i then 6 else 5
  stage := fun i ↦ bif i then
      .named (.ofString "/r/.00000000.tmp") (.ofString "r/0000000000006-analysis.json")
    else .returned (.ofString "r/0000000000005-analysis.json")
  touched := []

theorem link_taken (bytes bytes' : List UInt8) :
    (overtaken bytes bytes').files.link (.ofString "/r/.00000000.tmp")
      (reportPath ⟨.ofString "r", defaultSuffix⟩ 5)
        = .error (.refused .exists "r/0000000000005-analysis.json") := by
  cbv

theorem link_free (bytes bytes' : List UInt8) :
    (overtaken bytes bytes').files.link (.ofString "/r/.00000000.tmp")
      (reportPath ⟨.ofString "r", defaultSuffix⟩ 6) = .ok (stopped bytes bytes').files := by
  have hsource : (overtaken bytes bytes').files.stat (.ofString "/r/.00000000.tmp")
      = .ok (.file bytes') := by cbv
  have hplace : (overtaken bytes bytes').files.locate false
      (reportPath ⟨.ofString "r", defaultSuffix⟩ 6) = .ok ["r", "0000000000006-analysis.json"] := by
    cbv
  have hfree : (overtaken bytes bytes').files.entryAt ["r", "0000000000006-analysis.json"]
      = none := by
    cbv
  refine FileSystem.link_eq_ok_iff.mpr ⟨_, hsource, FileSystem.create_eq_ok_iff.mpr
    ⟨_, hplace, hfree, ?_⟩⟩
  rw [FileSystem.put_of_free hfree]
  rfl

theorem run_stopped (first second : Report) (bytes bytes' : List UInt8) :
    (rivals first second).Run (overtaken bytes bytes') (stopped bytes bytes') := by
  let retrying := (overtaken bytes bytes').goOn true (.claiming (.ofString "/r/.00000000.tmp") 999)
  let drawn := (retrying.draw true 5000000).goOn true (.naming (.ofString "/r/.00000000.tmp") 998 6)
  have htaken : (rivals first second).Step (overtaken bytes bytes') retrying :=
    .taken rfl (link_taken bytes bytes')
  have hdraw : (rivals first second).Step retrying drawn := .draw 5000000 (World.goOn_stage ..)
  have hlink : (rivals first second).Step drawn _ :=
    .link (World.goOn_stage ..) (link_free bytes bytes')
  have hpath : (rivals first second).store.reportPath 6
      = .ofString "r/0000000000006-analysis.json" := by cbv
  rw [World.goOn_files, World.goOn_goOn, hpath] at hlink
  refine .head htaken (.head hdraw (.single ?_))
  convert hlink using 1
  ext1
  · rfl
  · funext i
    cases i <;> cbv
  · funext i
    cases i <;> rfl
  · rfl

/-- A report without warnings. -/
def silent (contract : String) : Report where
  contract
  ecrecoverCount := 0
  keyExposureCount := 0
  riskScore := 3
  warnings := []

theorem entryAt_stopped (bytes bytes' : List UInt8) :
    (stopped bytes bytes').files.entryAt ["r", ".00000000.tmp"] = some (.file bytes') ∧
      (stopped bytes bytes').files.entryAt ["r", "0000000000006-analysis.json"]
        = some (.file bytes') :=
  ⟨by cbv, by cbv⟩

/-- Two processes draw the same token: the second loses its name and stops before it has removed its
temporary file. Its report is complete under the next name, and that of the first stays. -/
theorem concurrent_writes_rivals :
    ∃ w : World Bool Bool, (rivals (silent "A.sol") (silent "B.sol")).Run (atRest []) w ∧
      w.files.entryAt ["r", ".00000000.tmp"] = some (.file (Text.encode (silent "B.sol").text)) ∧
      w.files.entryAt ["r", "0000000000006-analysis.json"]
        = some (.file (Text.encode (silent "B.sol").text)) ∧
      (∃! i, (rivals (silent "A.sol") (silent "B.sol")).SavedAt w i
        ["r", "0000000000006-analysis.json"]) ∧
      ∀ later, (rivals (silent "A.sol") (silent "B.sol")).Run w later →
        later.files.stat (.ofString "r/0000000000005-analysis.json")
          = .ok (.file (Text.encode (silent "A.sol").text)) := by
  let c := rivals (silent "A.sol") (silent "B.sol")
  have hrun : c.Run (atRest []) (stopped (c.payload false) (c.payload true)) :=
    ((run_aboutToLink _ _).trans (run_overtaken _ _)).trans (run_stopped _ _ _ _)
  obtain ⟨htemporary, hreport⟩ := entryAt_stopped (c.payload false) (c.payload true)
  obtain ⟨-, hnew, hapart, hreturned, -⟩ := concurrent_writes
    (fun name hname ↦ hasSuffix_of_isTemporary (.ofString "r") hname) (fun _ ↦ rfl) hrun
  refine ⟨_, hrun, htemporary, hreport, ?_, fun later hlater ↦ ?_⟩
  · obtain ⟨i, ⟨hi, -⟩, -⟩ := hnew ["r"] "0000000000006-analysis.json" (.file (c.payload true))
      (by cbv) hreport (by simp [stopped]) (by decide)
    exact ⟨i, hi, fun j hj ↦ hapart j i _ hj hi⟩
  · exact (hreturned false _ rfl later hlater).2

end QuantumRisk.Store.Writers

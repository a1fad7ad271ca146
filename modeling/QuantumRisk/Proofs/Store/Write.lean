import QuantumRisk.Proofs.FileSystem.Actions
import QuantumRisk.Proofs.Store.Names
import QuantumRisk.Store.Basic

/-!
# What a write does

A write goes through several stages: directories, a temporary file, tokens until a name is free, and
the removal of the temporary file. Its whole effect on the tree is simple. The directory is made;
and if the write succeeds, one file is added at the place that the returned path leads to, as if it
had been created there at once (`SavedAs`). If the write fails the tree is as the making of the
directory left it, unless the disk refuses to let the temporary file go. Everything that is proved
of the store later on rests on these two statements.
-/

namespace QuantumRisk.Store

variable {s : Store} {r : Report} {w w' : Workspace} {p temporary : Path} {payload : String}
  {events : List Event} {fault : Fault} {disk : Disk}

/-! ## Tokens -/

theorem lt_nextToken (last ns : Int) : last < nextToken last ns := by
  rw [nextToken]
  omega

theorem lastToken_lt_draw (w : Workspace) : w.lastToken < (draw w).1 :=
  lt_nextToken w.lastToken w.clock

/-! ## Faults of a write -/

/-- A failure to save is told as such; no other failure comes from a write. -/
def IsWriteFault (fault : Fault) : Prop := ∀ f, fault = .failure f → f.kind = .write

theorem isWriteFault_write (message directory : String) :
    IsWriteFault (.failure (.write message directory)) := by
  rintro f ⟨⟩
  rfl

theorem isWriteFault_faultOf {refused : String → Fault}
    (h : ∀ reason, IsWriteFault (refused reason)) (e : PathFault) :
    IsWriteFault (faultOf refused e) := by
  cases e with
  | refused reason path => exact h reason.text
  | nullByte | linkLoop | noHome => exact fun f hf ↦ by cases hf

/-! ## Claiming a name -/

theorem claim_succ_on (disk : Disk) (s : Store) (temporary : Path) (attempts : Nat)
    (w : Workspace) :
    s.claim temporary (attempts + 1) w disk =
      match disk.allow .link (s.reportPath (draw w).1)
        (w.files.link temporary (s.reportPath (draw w).1)) with
      | .ok files => (.ok (s.reportPath (draw w).1), [], { (draw w).2 with files })
      | .error (.refused .exists _) =>
        ((s.claim temporary attempts (draw w).2 disk).1,
          .nameTaken (s.reportPath (draw w).1).name ::
            (s.claim temporary attempts (draw w).2 disk).2.1,
          (s.claim temporary attempts (draw w).2 disk).2.2)
      | .error e => (.error (faultOf s.cannotWrite e), [], (draw w).2) :=
  rfl

theorem claim_succ (s : Store) (temporary : Path) (attempts : Nat) (w : Workspace) :
    s.claim temporary (attempts + 1) w =
      match w.files.link temporary (s.reportPath (draw w).1) with
      | .ok files => (.ok (s.reportPath (draw w).1), [], { (draw w).2 with files })
      | .error (.refused .exists _) =>
        ((s.claim temporary attempts (draw w).2).1,
          .nameTaken (s.reportPath (draw w).1).name :: (s.claim temporary attempts (draw w).2).2.1,
          (s.claim temporary attempts (draw w).2).2.2)
      | .error e => (.error (faultOf s.cannotWrite e), [], (draw w).2) :=
  rfl

/-- A claim that succeeds has linked the temporary file to the name of a new token. -/
theorem claim_ok {attempts : Nat} (h : s.claim temporary attempts w disk = (.ok p, events, w')) :
    w.lastToken < w'.lastToken ∧ p = s.reportPath w'.lastToken ∧
      w.files.link temporary p = .ok w'.files := by
  induction attempts generalizing w events with
  | zero => cases h
  | succ attempts ih =>
    have hlt := lastToken_lt_draw w
    rw [claim_succ_on] at h
    split at h
    · next files hlink =>
      cases h
      exact ⟨hlt, rfl, Disk.allow_ok hlink⟩
    · next path htaken =>
      -- the name is taken: nothing has changed but the token, which has grown
      obtain ⟨hp, hrest⟩ := Prod.mk.inj h
      obtain ⟨-, hw'⟩ := Prod.mk.inj hrest
      obtain ⟨hlt', hpath, hlink⟩ := ih (Prod.ext hp (Prod.ext rfl hw'))
      exact ⟨Int.lt_trans hlt hlt', hpath, hlink⟩
    · cases h

/-- A claim that fails has changed no file. -/
theorem claim_error {attempts : Nat}
    (h : s.claim temporary attempts w disk = (.error fault, events, w')) :
    w'.files = w.files ∧ IsWriteFault fault := by
  induction attempts generalizing w events with
  | zero =>
    cases h
    exact ⟨rfl, isWriteFault_write _ _⟩
  | succ attempts ih =>
    rw [claim_succ_on] at h
    split at h
    · cases h
    · next path htaken =>
      obtain ⟨hfault, hrest⟩ := Prod.mk.inj h
      obtain ⟨-, hw'⟩ := Prod.mk.inj hrest
      obtain ⟨hfiles, hkind⟩ := ih (w := (draw w).2) (Prod.ext hfault (Prod.ext rfl hw'))
      exact ⟨hfiles, hkind⟩
    · next e hother hlink =>
      cases h
      exact ⟨rfl, isWriteFault_faultOf (fun _ ↦ isWriteFault_write _ _) e⟩

/-! ## Depositing a text -/

theorem release_none (s : Store) (temporary : Path) (w : Workspace) (disk : Disk) :
    s.release temporary none w disk = s.claim temporary claimLimit w disk :=
  rfl

theorem release_some (s : Store) (temporary : Path) (reason : Refusal) (w : Workspace)
    (disk : Disk) :
    s.release temporary (some reason) w disk = (.error (s.cannotWrite reason.text), [], w) :=
  rfl

theorem release_ok {stop : Option Refusal}
    (h : s.release temporary stop w disk = (.ok p, events, w')) :
    stop = none ∧ s.claim temporary claimLimit w disk = (.ok p, events, w') := by
  cases stop with
  | none => exact ⟨rfl, h⟩
  | some reason => cases h

theorem release_error {stop : Option Refusal}
    (h : s.release temporary stop w disk = (.error fault, events, w')) :
    w'.files = w.files ∧ IsWriteFault fault := by
  cases stop with
  | none => exact claim_error h
  | some reason =>
    cases h
    exact ⟨rfl, isWriteFault_write _ _⟩

/-- The temporary file is gone, or the refusal to remove it is all that is told. -/
theorem discard_cases {result : Except Fault Path}
    {outcome : Except Fault Path × List Event × Workspace}
    (h : discard temporary disk outcome = (result, events, w')) :
    (∃ w₁, outcome = (result, events, w₁) ∧
        w' = { w₁ with files := w₁.files.remove temporary }) ∨
      ∃ reason, disk.refuses .remove temporary = some reason ∧
        result = .error (.path (.refused reason temporary.text)) ∧ outcome.2.2 = w' := by
  obtain ⟨result', events', w₁⟩ := outcome
  rw [discard] at h
  split at h
  · next reason hrefuses =>
    cases h
    exact .inr ⟨reason, hrefuses, rfl, rfl⟩
  · cases h
    exact .inl ⟨w₁, rfl, rfl⟩

/-- Giving a file a name adds a file at most. -/
theorem extends_release {stop : Option Refusal} {bytes : List UInt8}
    (hstat : w.files.stat temporary = .ok (.file bytes)) :
    FileSystem.Extends w.files (s.release temporary stop w disk).2.2.files := by
  rcases hrelease : s.release temporary stop w disk with ⟨fault | p, events, w'⟩
  · rw [(release_error hrelease).1]
    exact .refl _
  · obtain ⟨-, -, hlink⟩ := claim_ok (release_ok hrelease).2
    obtain ⟨e, he, hcreate⟩ := FileSystem.link_eq_ok_iff.mp hlink
    obtain rfl : e = .file bytes := Except.ok.inj (he.symm.trans hstat)
    exact FileSystem.extends_create hcreate (by simp)

/-- On the willing disk the whole text comes into the temporary file, which is gone in the end. -/
theorem deposit_eq (s : Store) (payload : String) (w : Workspace) :
    s.deposit payload w =
      match freeTemporary w.files (w.files.lexical s.directory) with
      | none => (.error (s.cannotWrite "No usable temporary file name found"), [], w)
      | some temporary =>
        match w.files.create temporary (.file (Text.encode payload)) with
        | .error e => (.error (faultOf s.cannotWrite e), [], w)
        | .ok files =>
          match s.claim temporary claimLimit { w with files } with
          | (result, events, w) =>
            (result, events, { w with files := w.files.remove temporary }) :=
  rfl

/-- The tree `fs` has got one more file, the text at the place of the returned path, and the path is
that of a token after `last`. -/
structure SavedAs (s : Store) (payload : String) (fs : FileSystem) (last : Int) (p : Path)
    (w' : Workspace) (q : Place) : Prop where
  token : last < w'.lastToken
  path : p = s.reportPath w'.lastToken
  locate : fs.locate false p = .ok q
  free : fs.entryAt q = none
  files : w'.files = fs.put q (.file (Text.encode payload))

theorem deposit_ok (h : s.deposit payload w disk = (.ok p, events, w')) :
    ∃ q, SavedAs s payload w.files w.lastToken p w' q := by
  rw [deposit] at h
  split at h
  · cases h
  next temporary hfree =>
  split at h
  next bytes stop htaken =>
  split at h
  · cases h
  next files hcreate =>
  rcases discard_cases h with ⟨w₁, hrelease, rfl⟩ | ⟨reason, -, hresult, -⟩
  · obtain ⟨rfl, hclaim⟩ := release_ok hrelease
    obtain rfl := Disk.taken_all htaken
    obtain ⟨hlt, hpath, hlink⟩ := claim_ok hclaim
    obtain ⟨q, hq, hnone, hfiles⟩ :=
      FileSystem.remove_link_create (Disk.allow_ok hcreate) hlink
    exact ⟨q, hlt, hpath, hq, hnone, hfiles⟩
  · cases hresult

/-- The disk refuses to let a file go, and this is all that is told. -/
def KeptBack (disk : Disk) (fault : Fault) : Prop :=
  ∃ t reason, disk.refuses .remove t = some reason ∧ fault = .path (.refused reason t.text)

theorem KeptBack.isWriteFault (h : KeptBack disk fault) : IsWriteFault fault := by
  obtain ⟨t, reason, -, rfl⟩ := h
  exact fun f hf ↦ by cases hf

theorem deposit_error (h : s.deposit payload w disk = (.error fault, events, w')) :
    (w'.files = w.files ∨ KeptBack disk fault ∧ FileSystem.Extends w.files w'.files) ∧
      IsWriteFault fault := by
  rw [deposit] at h
  split at h
  · cases h
    exact ⟨.inl rfl, isWriteFault_write _ _⟩
  next temporary hfree =>
  split at h
  next bytes stop htaken =>
  split at h
  · next e hcreate =>
    cases h
    exact ⟨.inl rfl, isWriteFault_faultOf (fun _ ↦ isWriteFault_write _ _) e⟩
  next files hcreate =>
  replace hcreate := Disk.allow_ok hcreate
  rcases discard_cases h with ⟨w₁, hrelease, rfl⟩ | ⟨reason, hrefuses, hresult, rfl⟩
  · obtain ⟨hfiles, hfault⟩ := release_error hrelease
    refine ⟨.inl ?_, hfault⟩
    dsimp only at hfiles ⊢
    rw [hfiles]
    exact FileSystem.remove_create hcreate
  · have hkept : KeptBack disk fault := ⟨temporary, reason, hrefuses, Except.error.inj hresult⟩
    have hx : FileSystem.Extends w.files files := FileSystem.extends_create hcreate (by simp)
    have hstat : files.stat temporary = .ok (.file bytes) :=
      FileSystem.stat_create hcreate (by simp)
    exact ⟨.inr ⟨hkept, hx.trans (extends_release (w := { w with files }) hstat)⟩,
      hkept.isWriteFault⟩

section SavedAs

variable {fs : FileSystem} {last : Int} {q : Place}

theorem SavedAs.extends (h : SavedAs s payload fs last p w' q) :
    FileSystem.Extends fs w'.files := by
  rw [h.files]
  exact FileSystem.extends_put h.free (by simp)

theorem SavedAs.stat (h : SavedAs s payload fs last p w' q) :
    w'.files.stat p = .ok (.file (Text.encode payload)) := by
  rw [h.files]
  exact FileSystem.stat_put h.locate h.free (by simp)

/-- The new file lies in the directory, under the name of its token. -/
theorem SavedAs.place {d : Place} (h : SavedAs s payload fs last p w' q)
    (hsuffix : '/' ∉ s.suffix.toList) (hd : fs.locate true s.directory = .ok d) :
    q = d ++ [reportName w'.lastToken s.suffix] := by
  have hp := h.locate
  rw [h.path, reportPath] at hp
  rcases FileSystem.locate_append (plain_reportName hsuffix _) hd hp with hq | ⟨hfollow, -⟩
  · exact hq
  · cases hfollow

end SavedAs

/-! ## Writing a report -/

theorem write_of_deposit {fs : FileSystem}
    (hmake : w.files.makeDirectories s.directory disk = (.ok (), fs))
    (h : s.deposit r.text { w with files := fs } disk = (.ok p, events, w')) :
    s.write r w disk = (.ok p, events ++ [.saved r.contract p.text], w') := by
  rw [write, hmake]
  simp only [h]

theorem write_of_deposit_error {fs : FileSystem}
    (hmake : w.files.makeDirectories s.directory disk = (.ok (), fs))
    (h : s.deposit r.text { w with files := fs } disk = (.error fault, events, w')) :
    s.write r w disk = (.error fault, events, w') := by
  rw [write, hmake]
  simp only [h]

/-- What there has to be for a save that goes well: a directory, room in it for a temporary file,
and a free name for the next token. -/
structure Ready (s : Store) (w : Workspace) (fs : FileSystem) (temporary : Path) (t q : Place) :
    Prop where
  chosen : freeTemporary fs (fs.lexical s.directory) = some temporary
  temporaryPlace : fs.locate false temporary = .ok t
  temporaryFree : fs.entryAt t = none
  place : fs.locate false (s.reportPath (draw w).1) = .ok q
  free : fs.entryAt q = none
  ne : q ≠ t

section Ready

variable {fs : FileSystem} {t q : Place} {bytes : List UInt8}

theorem Ready.create (h : Ready s w fs temporary t q) (bytes : List UInt8) :
    fs.create temporary (.file bytes) = .ok (fs.put t (.file bytes)) :=
  FileSystem.create_eq_ok_iff.mpr ⟨t, h.temporaryPlace, h.temporaryFree, rfl⟩

theorem Ready.link (h : Ready s w fs temporary t q) (bytes : List UInt8) :
    (fs.put t (.file bytes)).link temporary (s.reportPath (draw w).1)
      = .ok ((fs.put t (.file bytes)).put q (.file bytes)) := by
  have hx : FileSystem.Extends fs (fs.put t (.file bytes)) :=
    FileSystem.extends_put h.temporaryFree (by simp)
  refine FileSystem.link_eq_ok_iff.mpr
    ⟨_, FileSystem.stat_put h.temporaryPlace h.temporaryFree (by simp), ?_⟩
  refine FileSystem.create_eq_ok_iff.mpr ⟨q, hx.locate h.place, ?_, rfl⟩
  rw [FileSystem.entryAt_put_of_ne h.ne, h.free]

/-- The first name is claimed, unless the disk refuses it. -/
theorem Ready.claim (h : Ready s w fs temporary t q)
    (hlink : disk.refuses .link (s.reportPath (draw w).1) = none) :
    s.claim temporary claimLimit { w with files := fs.put t (.file bytes) } disk
      = (.ok (s.reportPath (draw w).1), [],
        { (draw w).2 with files := (fs.put t (.file bytes)).put q (.file bytes) }) := by
  have hdraw : draw { w with files := fs.put t (.file bytes) }
      = ((draw w).1, { (draw w).2 with files := fs.put t (.file bytes) }) := rfl
  rw [claimLimit, claim_succ_on]
  simp only [hdraw, Disk.allow, hlink, h.link]

/-- A text is deposited, or as much of it as the disk takes. -/
theorem Ready.deposit (h : Ready s w fs temporary t q) {stop : Option Refusal}
    (hcreate : disk.refuses .create temporary = none)
    (htaken : disk.taken temporary (Text.encode payload) = (bytes, stop)) :
    s.deposit payload { w with files := fs } disk
      = discard temporary disk
        (s.release temporary stop { w with files := fs.put t (.file bytes) } disk) := by
  simp only [Store.deposit, h.chosen, htaken, Disk.allow, hcreate, h.create]

end Ready

/-- A write succeeds at once if the directory can be made, there is room for a temporary file and
the name of the next token is free. -/
theorem write_of_ready {fs : FileSystem} {q t : Place}
    (hmake : w.files.makeDirectories s.directory = (.ok (), fs))
    (hready : Ready s w fs temporary t q) :
    s.write r w =
      (.ok (s.reportPath (draw w).1), [.saved r.contract (s.reportPath (draw w).1).text],
        { (draw w).2 with files := fs.put q (.file (Text.encode r.text)) }) := by
  -- the link and the removal together are one new file, at the place found before either
  obtain ⟨q', hq', -, hremove⟩ :=
    FileSystem.remove_link_create (hready.create (Text.encode r.text)) (hready.link _)
  obtain rfl : q = q' := Except.ok.inj (hready.place.symm.trans hq')
  have hdeposit : s.deposit r.text { w with files := fs }
      = (.ok (s.reportPath (draw w).1), [],
        { (draw w).2 with files := fs.put q (.file (Text.encode r.text)) }) := by
    have htaken : Disk.willing.taken temporary (Text.encode r.text) = (Text.encode r.text, none) :=
      rfl
    rw [hready.deposit rfl htaken, release_none, hready.claim rfl, ← hremove]
    rfl
  exact write_of_deposit hmake hdeposit

/-- A save that the disk breaks off: it is full, say. -/
theorem write_of_stop {fs : FileSystem} {q t : Place} {bytes : List UInt8} {reason : Refusal}
    (hmake : w.files.makeDirectories s.directory disk = (.ok (), fs))
    (hready : Ready s w fs temporary t q) (hcreate : disk.refuses .create temporary = none)
    (htaken : disk.taken temporary (Text.encode r.text) = (bytes, some reason))
    (hremove : disk.refuses .remove temporary = none) :
    s.write r w disk = (.error (s.cannotWrite reason.text), [], { w with files := fs }) := by
  refine write_of_deposit_error hmake ?_
  rw [hready.deposit hcreate htaken, release_some, discard, hremove]
  simp only [FileSystem.remove_create (hready.create bytes)]

/-- A save after which the disk does not let the temporary file go. -/
theorem write_of_keptBack {fs : FileSystem} {q t : Place} {bytes : List UInt8} {reason : Refusal}
    (hmake : w.files.makeDirectories s.directory disk = (.ok (), fs))
    (hready : Ready s w fs temporary t q) (hcreate : disk.refuses .create temporary = none)
    (htaken : disk.taken temporary (Text.encode r.text) = (bytes, none))
    (hlink : disk.refuses .link (s.reportPath (draw w).1) = none)
    (hremove : disk.refuses .remove temporary = some reason) :
    s.write r w disk =
      (.error (.path (.refused reason temporary.text)), [],
        { (draw w).2 with files := (fs.put t (.file bytes)).put q (.file bytes) }) := by
  refine write_of_deposit_error hmake ?_
  rw [hready.deposit hcreate htaken, release_none, hready.claim hlink, discard, hremove]

/-- **A write that succeeds** makes the directory and adds one file. -/
theorem write_ok (h : s.write r w disk = (.ok p, events, w')) :
    ∃ fs q, w.files.makeDirectories s.directory disk = (.ok (), fs) ∧
      SavedAs s r.text fs w.lastToken p w' q := by
  rw [write] at h
  split at h
  · cases h
  next fs hmake =>
  split at h
  · cases h
  next path more w₁ hdeposit =>
  cases h
  obtain ⟨q, hsaved⟩ := deposit_ok hdeposit
  exact ⟨fs, q, hmake, hsaved⟩

/-- **A write that fails** makes directories at most, unless the temporary file cannot be removed;
even then it takes nothing away. -/
theorem write_error (h : s.write r w disk = (.error fault, events, w')) :
    (w'.files = (w.files.makeDirectories s.directory disk).2 ∨
        KeptBack disk fault ∧
          FileSystem.Extends (w.files.makeDirectories s.directory disk).2 w'.files) ∧
      IsWriteFault fault := by
  rw [write] at h
  split at h
  · next e fs hmake =>
    cases h
    exact ⟨.inl (by rw [hmake]), isWriteFault_faultOf (fun _ ↦ isWriteFault_write _ _) e⟩
  next fs hmake =>
  split at h
  · next e more w₁ hdeposit =>
    cases h
    rw [hmake]
    exact deposit_error hdeposit
  · cases h

end QuantumRisk.Store

import Mathlib.Logic.Function.Basic
import Mathlib.Logic.Relation
import QuantumRisk.Proofs.FileSystem.OneFile
import QuantumRisk.Proofs.Store.Write

/-!
# Many writers in one directory

A write is not one action but several: a temporary file is created, filled piece by piece, given a
name after some tries, and removed. Other writers, and other programs, may act between any two of
these. Here any number of writes is carried out step by step in one tree, in any order of the steps.
Writes belong to processes; every process has its own last token, and its clock shows anything
whenever it is asked. A write that is never continued has crashed.

The steps are those of the store: a write that nobody interrupts is a sequence of them
(`write_is_run`).
-/

namespace QuantumRisk.Store

open Relation (ReflTransGen)

/-- Names of temporary files: hidden, with an ending of their own. -/
def IsTemporary (name : String) : Prop :=
  ∃ middle : String, '/' ∉ middle.toList ∧ name = "." ++ middle ++ ".tmp"

/-- How far a write has come. -/
inductive Stage where
  | waiting
  /-- The temporary file holds the first part of the text. -/
  | filling (temporary : Path) (written : List UInt8)
  /-- The text is complete, and so many names may still be tried. -/
  | claiming (temporary : Path) (attempts : Nat)
  /-- A token is drawn, and its name is to be tried. -/
  | naming (temporary : Path) (attempts : Nat) (token : Int)
  /-- The file has its name, and the temporary name is still there. -/
  | named (temporary target : Path)
  /-- The write has failed, and the temporary file is still there. -/
  | abandoned (temporary : Path) (written : List UInt8)
  | returned (target : Path)
  | failed

/-- The two files of a write. -/
inductive Role where
  | temporary
  | report

def Role.other : Role → Role
  | .temporary => .report
  | .report => .temporary

theorem Role.eq_other {role role' : Role} (h : role ≠ role') : role = role'.other := by
  cases role <;> cases role' <;> trivial

namespace Stage

/-- The files of a write of `payload`: their paths, and what they hold. -/
def file? (payload : List UInt8) : Stage → Role → Option (Path × List UInt8)
  | .filling t written, .temporary => some (t, written)
  | .claiming t _, .temporary => some (t, payload)
  | .naming t _ _, .temporary => some (t, payload)
  | .named t _, .temporary => some (t, payload)
  | .abandoned t written, .temporary => some (t, written)
  | .named _ p, .report => some (p, payload)
  | .returned p, .report => some (p, payload)
  | _, _ => none

/-- A report is named only when its text is complete. -/
theorem payload_of_report {payload : List UInt8} {stage : Stage} {x : Path × List UInt8}
    (h : stage.file? payload .report = some x) : x.2 = payload := by
  cases stage <;> cases h <;> rfl

/-- The stage of a write that has ended. -/
def ended : Except Fault Path → Stage
  | .ok p => .returned p
  | .error _ => .failed

end Stage

/-- Writes `i : ι` into one store, each with its report and its process. -/
structure Writers (ι π : Type) where
  store : Store
  report : ι → Report
  process : ι → π

/-- The state of everything that acts on the tree. -/
@[ext]
structure World (ι π : Type) where
  files : FileSystem
  lastToken : π → Int
  stage : ι → Stage
  /-- Where other programs have changed something. -/
  touched : List Place

namespace World

variable {ι π : Type} (w : World ι π)

section Stages

variable [DecidableEq ι] (i : ι) (stage stage' : Stage)

/-- One write goes on to another stage. -/
def goOn : World ι π := { w with stage := Function.update w.stage i stage }

@[simp] theorem goOn_stage : (w.goOn i stage).stage i = stage := Function.update_self ..

theorem goOn_stage_of_ne {j : ι} (h : j ≠ i) : (w.goOn i stage).stage j = w.stage j :=
  Function.update_of_ne h ..

@[simp] theorem goOn_goOn : (w.goOn i stage).goOn i stage' = w.goOn i stage' := by
  rw [goOn, goOn, Function.update_idem]
  rfl

theorem goOn_files (files : FileSystem) :
    { w.goOn i stage with files } = { w with files }.goOn i stage := rfl

end Stages

section Tokens

variable [DecidableEq π] (process : π) (files files' : FileSystem) (last last' ns : Int)

/-- The token that a process draws when its clock shows `ns`. -/
def token : Int := nextToken (w.lastToken process) ns

/-- A process draws a token. -/
def draw : World ι π :=
  { w with lastToken := Function.update w.lastToken process (w.token process ns) }

/-- The tree and the last token of a process after some steps. -/
def settle : World ι π :=
  { w with files, lastToken := Function.update w.lastToken process last }

@[simp] theorem settle_lastToken : (w.settle process files last).lastToken process = last :=
  Function.update_self ..

@[simp] theorem settle_settle :
    (w.settle process files' last').settle process files last = w.settle process files last := by
  rw [settle, settle, Function.update_idem]
  rfl

theorem settle_self : w.settle process w.files (w.lastToken process) = w := by
  rw [settle, Function.update_eq_self]

end Tokens

@[simp] theorem settle_goOn [DecidableEq ι] [DecidableEq π] (process : π) (files : FileSystem)
    (last : Int) (i : ι) (stage : Stage) :
    (w.goOn i stage).settle process files last = (w.settle process files last).goOn i stage :=
  rfl

end World

variable {ι π : Type} [DecidableEq ι] [DecidableEq π]

namespace Writers

/-- What a write has to save. -/
def payload (c : Writers ι π) (i : ι) : List UInt8 := Text.encode (c.report i).text

/-- The files of the writes in a state. -/
def file? (c : Writers ι π) (w : World ι π) (h : ι × Role) : Option (Path × List UInt8) :=
  (w.stage h.1).file? (c.payload h.1) h.2

/-- A path to a name beside the reports. -/
def temporaryPath (c : Writers ι π) (fs : FileSystem) (name : String) : Path :=
  FileSystem.pathOf (fs.lexical c.store.directory ++ [name])

/-- One step of one write, or of another program. -/
inductive Step (c : Writers ι π) (w : World ι π) : World ι π → Prop
  | create {i : ι} {name : String} {files : FileSystem} (hstage : w.stage i = .waiting)
      (hname : IsTemporary name)
      (hfiles : w.files.create (c.temporaryPath w.files name) (.file []) = .ok files) :
      Step c w ({ w with files }.goOn i (.filling (c.temporaryPath w.files name) []))
  | cannotCreate {i : ι} (hstage : w.stage i = .waiting) : Step c w (w.goOn i .failed)
  | fill {i : ι} {t : Path} {written more : List UInt8} {files : FileSystem}
      (hstage : w.stage i = .filling t written) (hpart : written ++ more <+: c.payload i)
      (hfiles : w.files.writeFile t (written ++ more) = .ok files) :
      Step c w ({ w with files }.goOn i (.filling t (written ++ more)))
  | cannotFill {i : ι} {t : Path} {written : List UInt8} (hstage : w.stage i = .filling t written) :
      Step c w (w.goOn i (.abandoned t written))
  | close {i : ι} {t : Path} (hstage : w.stage i = .filling t (c.payload i)) :
      Step c w (w.goOn i (.claiming t claimLimit))
  /-- The clock shows any time. -/
  | draw {i : ι} {t : Path} {n : Nat} (ns : Int) (hstage : w.stage i = .claiming t (n + 1)) :
      Step c w ((w.draw (c.process i) ns).goOn i (.naming t n (w.token (c.process i) ns)))
  | link {i : ι} {t : Path} {n : Nat} {token : Int} {files : FileSystem}
      (hstage : w.stage i = .naming t n token)
      (hfiles : w.files.link t (c.store.reportPath token) = .ok files) :
      Step c w ({ w with files }.goOn i (.named t (c.store.reportPath token)))
  | taken {i : ι} {t : Path} {n : Nat} {token : Int} {path : String}
      (hstage : w.stage i = .naming t n token)
      (hfiles : w.files.link t (c.store.reportPath token) = .error (.refused .exists path)) :
      Step c w (w.goOn i (.claiming t n))
  | cannotLink {i : ι} {t : Path} {n : Nat} {token : Int} {fault : PathFault}
      (hstage : w.stage i = .naming t n token)
      (hfiles : w.files.link t (c.store.reportPath token) = .error fault)
      (hfault : ∀ path, fault ≠ .refused .exists path) :
      Step c w (w.goOn i (.abandoned t (c.payload i)))
  | giveUp {i : ι} {t : Path} (hstage : w.stage i = .claiming t 0) :
      Step c w (w.goOn i (.abandoned t (c.payload i)))
  | finish {i : ι} {t p : Path} (hstage : w.stage i = .named t p) :
      Step c w ({ w with files := w.files.remove t }.goOn i (.returned p))
  | cleanUp {i : ι} {t : Path} {written : List UInt8} (hstage : w.stage i = .abandoned t written) :
      Step c w ({ w with files := w.files.remove t }.goOn i .failed)
  /-- Another program makes, changes or removes a file that is not one of the writers'. -/
  | other {q : Place} {files : FileSystem} (hfiles : FileSystem.DifferAt q w.files files)
      (hfree : ∀ h x, c.file? w h = some x → w.files.locate false x.1 ≠ .ok q) :
      Step c w { w with files, touched := q :: w.touched }

/-- A sequence of steps. -/
def Run (c : Writers ι π) : World ι π → World ι π → Prop := ReflTransGen c.Step

/-! ## A write that nobody interrupts -/

section Alone

variable {c : Writers ι π} {w : World ι π} {i : ι} {t : Path} {before after : Workspace}
  {result : Except Fault Path} {events : List Event}

/-- The stage of a write that is done with trying names. -/
def claimed (c : Writers ι π) (i : ι) (t : Path) : Except Fault Path → Stage
  | .ok p => .named t p
  | .error _ => .abandoned t (c.payload i)

theorem claim_is_run {n : Nat} (h : c.store.claim t n before = (result, events, after))
    (hstage : w.stage i = .claiming t n) (hfiles : before.files = w.files)
    (hlast : before.lastToken = w.lastToken (c.process i)) :
    c.Run w
      ((w.settle (c.process i) after.files after.lastToken).goOn i (c.claimed i t result)) := by
  induction n generalizing w before events with
  | zero =>
    cases h
    rw [hfiles, hlast, World.settle_self]
    exact .single (.giveUp hstage)
  | succ n ih =>
    have htoken : w.token (c.process i) before.clock = (Store.draw before).1 := by
      rw [World.token, ← hlast]
      rfl
    -- the state in which the token is drawn, and its name is to be tried
    let drawn := (w.settle (c.process i) w.files (Store.draw before).1).goOn i
      (.naming t n (Store.draw before).1)
    have hdrawn : drawn.stage i = .naming t n (Store.draw before).1 := World.goOn_stage ..
    have hdraw : c.Step w drawn := by
      have hstep : c.Step w _ := .draw before.clock hstage
      rwa [World.draw, htoken] at hstep
    refine .head hdraw ?_
    rw [claim_succ, hfiles] at h
    split at h
    · next files hlink =>
      cases h
      have hstep := Step.link hdrawn hlink
      rw [World.goOn_files, World.goOn_goOn] at hstep
      exact .single hstep
    · next path htaken =>
      obtain ⟨hresult, hrest⟩ := Prod.mk.inj h
      obtain ⟨-, hafter⟩ := Prod.mk.inj hrest
      have hstep : c.Step drawn (drawn.goOn i (.claiming t n)) := .taken hdrawn htaken
      have hlast' : (Store.draw before).2.lastToken = drawn.lastToken (c.process i) :=
        (World.settle_lastToken w (c.process i) w.files (Store.draw before).1).symm
      have hrun := ih (Prod.ext hresult (Prod.ext rfl hafter))
        (World.goOn_stage drawn i (.claiming t n)) hfiles hlast'
      simp only [drawn, World.settle_goOn, World.settle_settle, World.goOn_goOn] at hstep hrun
      exact .head hstep hrun
    · next fault hfault hlink =>
      cases h
      have hstep : c.Step drawn _ := .cannotLink hdrawn hlink hfault
      rw [World.goOn_goOn] at hstep
      rw [show (Store.draw before).2.files = w.files from hfiles]
      exact .single hstep

theorem exists_isTemporary {fs : FileSystem} {d : Place} (h : freeTemporary fs d = some t) :
    ∃ name, IsTemporary name ∧ t = FileSystem.pathOf (d ++ [name]) := by
  have hmem : t ∈ temporaries fs d := List.mem_of_find?_eq_some h
  obtain ⟨n, -, rfl⟩ := List.mem_map.mp hmem
  exact ⟨temporaryName n, ⟨padded 8 n, slash_notMem_padded 8 n, rfl⟩, rfl⟩

/-- A temporary file is filled in one piece. -/
theorem create_is_run {name : String} {files : FileSystem} (hstage : w.stage i = .waiting)
    (hname : IsTemporary name)
    (h : w.files.create (c.temporaryPath w.files name) (.file (c.payload i)) = .ok files) :
    c.Run w ({ w with files }.goOn i (.claiming (c.temporaryPath w.files name) claimLimit)) := by
  obtain ⟨q, hq, hfree, rfl⟩ := FileSystem.create_eq_ok_iff.mp h
  have hqne : q ≠ [] := FileSystem.ne_nil_of_entryAt_eq_none hfree
  -- the empty file comes first, and is then written over
  have hempty : w.files.create (c.temporaryPath w.files name) (.file [])
      = .ok (w.files.put q (.file [])) :=
    FileSystem.create_eq_ok_iff.mpr ⟨q, hq, hfree, rfl⟩
  have hwrite : FileSystem.writeFile (w.files.put q (.file [])) (c.temporaryPath w.files name)
      ([] ++ c.payload i) = .ok (w.files.put q (.file (c.payload i))) := by
    rw [List.nil_append, FileSystem.writeFile_of_file
      ((FileSystem.extends_put hfree (by simp)).locate hq) (FileSystem.entryAt_put_self hqne),
      FileSystem.put_put]
  have hcreate := Step.create hstage hname hempty
  let made : World ι π := { w with files := w.files.put q (.file []) }
  let filled : World ι π := { w with files := w.files.put q (.file (c.payload i)) }
  have hall : [] ++ c.payload i <+: c.payload i := by rw [List.nil_append]
  have hfill := Step.fill (World.goOn_stage made i (.filling (c.temporaryPath w.files name) []))
    hall hwrite
  have hclose := Step.close
    (World.goOn_stage filled i (.filling (c.temporaryPath w.files name) (c.payload i)))
  rw [World.goOn_files, World.goOn_goOn, List.nil_append] at hfill
  rw [World.goOn_goOn] at hclose
  exact .head hcreate (.head hfill (.single hclose))

theorem deposit_is_run (h : c.store.deposit (c.report i).text before = (result, events, after))
    (hstage : w.stage i = .waiting) (hfiles : before.files = w.files)
    (hlast : before.lastToken = w.lastToken (c.process i)) :
    c.Run w ((w.settle (c.process i) after.files after.lastToken).goOn i (.ended result)) := by
  rw [deposit_eq, hfiles] at h
  split at h
  · cases h
    rw [hfiles, hlast, World.settle_self]
    exact .single (.cannotCreate hstage)
  next temporary hfree =>
  split at h
  · cases h
    rw [hfiles, hlast, World.settle_self]
    exact .single (.cannotCreate hstage)
  next files hcreate =>
  split at h
  next result' more claimed hclaim =>
  cases h
  obtain ⟨name, hname, rfl⟩ := exists_isTemporary hfree
  have hfilled := create_is_run hstage hname hcreate
  have htried := claim_is_run hclaim (World.goOn_stage { w with files } i _) rfl hlast
  rw [World.settle_goOn, World.goOn_goOn] at htried
  refine (hfilled.trans htried).tail ?_
  let tried := w.settle (c.process i) claimed.files claimed.lastToken
  let temporary := c.temporaryPath w.files name
  cases result with
  | ok p =>
    have hstep : c.Step (tried.goOn i (.named temporary p)) _ := .finish (World.goOn_stage ..)
    rwa [World.goOn_files, World.goOn_goOn] at hstep
  | error fault =>
    have hstep : c.Step (tried.goOn i (.abandoned temporary (c.payload i))) _ :=
      .cleanUp (World.goOn_stage ..)
    rwa [World.goOn_files, World.goOn_goOn] at hstep

/-- **The steps are those of the store**: where the directory stands, a write is a sequence of
steps, to its own result and to the tree and the last token that it leaves. -/
theorem write_is_run (h : c.store.write (c.report i) before = (result, events, after))
    (hdirectory : w.files.stat c.store.directory = .ok .directory)
    (hstage : w.stage i = .waiting) (hfiles : before.files = w.files)
    (hlast : before.lastToken = w.lastToken (c.process i)) :
    c.Run w ((w.settle (c.process i) after.files after.lastToken).goOn i (.ended result)) := by
  rw [write, hfiles, FileSystem.makeDirectories_of_stat hdirectory] at h
  have hbefore : { before with files := w.files } = before := by rw [← hfiles]
  simp only [hbefore] at h
  split at h
  · next fault more w' hdeposit =>
    cases h
    exact deposit_is_run hdeposit hstage hfiles hlast
  · next p more w' hdeposit =>
    cases h
    exact deposit_is_run hdeposit hstage hfiles hlast

end Alone

end Writers

end QuantumRisk.Store

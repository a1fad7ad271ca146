import QuantumRisk.FileSystem.Disk
import QuantumRisk.Text.Lines
import QuantumRisk.Text.Utf8

/-!
# Reading and changing the tree

Every action is a function of the file system; those that change it return the new one. A directory
with its missing ancestors is made in several steps, and steps that were done stay done if a later
one is refused, by the tree or by the disk.
-/

namespace QuantumRisk.FileSystem

/-! ## Asking -/

/-- The entry that a path leads to. -/
def stat (fs : FileSystem) (p : Path) : Except PathFault Entry :=
  match fs.locate true p with
  | .error e => .error e
  | .ok place =>
    match fs.entryAt place with
    | some e => .ok e
    | none => .error (.refused .noEntry p.text)

/-- Whether a path leads to an entry that passes a test. That nothing is there is an answer; that
the path cannot be asked about is not. -/
def probe (fs : FileSystem) (test : Entry → Bool) (p : Path) : Except PathFault Bool :=
  match fs.stat p with
  | .ok e => .ok (test e)
  | .error (.refused reason path) =>
    if reason.meansAbsent then .ok false else .error (.refused reason path)
  | .error _ => .ok false

def exists? (fs : FileSystem) (p : Path) : Except PathFault Bool := fs.probe (fun _ ↦ true) p

def isFile (fs : FileSystem) (p : Path) : Except PathFault Bool := fs.probe Entry.isFile p

def isDirectory (fs : FileSystem) (p : Path) : Except PathFault Bool :=
  fs.probe Entry.isDirectory p

/-- The names in the directory that a path leads to. -/
def names (fs : FileSystem) (p : Path) : Except PathFault (List String) :=
  match fs.locate true p with
  | .error e => .error e
  | .ok place =>
    match fs.entryAt place with
    | some .directory => .ok (fs.namesIn place)
    | some _ => .error (.refused .notDirectory p.text)
    | none => .error (.refused .noEntry p.text)

/-! ## Reading -/

/-- Why a text cannot be read. -/
inductive ReadFault where
  | path (fault : PathFault)
  | text (fault : Text.Utf8Fault)
  deriving DecidableEq, Inhabited

def ReadFault.message : ReadFault → String
  | .path fault => fault.message
  | .text fault => fault.message

def readBytes (fs : FileSystem) (p : Path) : Except PathFault (List UInt8) :=
  match fs.stat p with
  | .error e => .error e
  | .ok (.file bytes) => .ok bytes
  | .ok _ => .error (.refused .isDirectory p.text)

/-- The text of a file with line feeds as its only line ends. -/
def readText (fs : FileSystem) (p : Path) : Except ReadFault String :=
  match fs.readBytes p with
  | .error e => .error (.path e)
  | .ok bytes =>
    match Text.decode bytes with
    | .error e => .error (.text e)
    | .ok s => .ok (Text.unified s)

/-! ## Changing -/

/-- Enter something at a path where nothing is. -/
def create (fs : FileSystem) (p : Path) (e : Entry) : Except PathFault FileSystem :=
  match fs.locate false p with
  | .error fault => .error fault
  | .ok place =>
    match fs.entryAt place with
    | some _ => .error (.refused .exists p.text)
    | none => .ok (fs.put place e)

/-- Does anything stand at a path itself? A path that cannot be walked has nothing there. -/
def isTaken (fs : FileSystem) (p : Path) : Bool :=
  match fs.locate false p with
  | .ok place => (fs.entryAt place).isSome
  | .error _ => false

/-- Make one directory. -/
def makeDirectory (fs : FileSystem) (p : Path) (disk : Disk := .willing) :
    Except PathFault FileSystem :=
  disk.allow .makeDirectory p (fs.create p .directory)

/-- Give a file a second name where nothing is. -/
def link (fs : FileSystem) (source target : Path) : Except PathFault FileSystem :=
  match fs.stat source with
  | .error fault => .error fault
  | .ok e => fs.create target e

/-- The tree without the file or link at a path; it may be absent. -/
def remove (fs : FileSystem) (p : Path) : FileSystem :=
  match fs.locate false p with
  | .ok place => fs.erase place
  | .error _ => fs

/-- Write a file, over the old one if there is one. -/
def writeFile (fs : FileSystem) (p : Path) (bytes : List UInt8) : Except PathFault FileSystem :=
  match fs.locate true p with
  | .error fault => .error fault
  | .ok place =>
    match fs.entryAt place with
    | some .directory => .error (.refused .isDirectory p.text)
    | _ => .ok (fs.put place (.file bytes))

/-- A refusal to make a directory does not matter if it is there. -/
def settle (fs : FileSystem) (p : Path) (fault : PathFault) : Except PathFault Unit :=
  match fault with
  | .refused _ _ =>
    match fs.isDirectory p with
    | .ok true => .ok ()
    | .ok false => .error fault
    | .error e => .error e
  | _ => .error fault

/-- Make a directory with its missing ancestors, unless it is there. -/
def makeDirectories (fs : FileSystem) (p : Path) (disk : Disk := .willing) :
    Except PathFault Unit × FileSystem :=
  match fs.makeDirectory p disk with
  | .ok fs => (.ok (), fs)
  | .error (.refused .noEntry path) =>
    if h : p.parts = [] then (.error (.refused .noEntry path), fs)
    else
      have : p.parent.parts.length < p.parts.length := by
        have := List.length_pos_iff.mpr h
        simp only [Path.parent, List.length_dropLast]
        omega
      match makeDirectories fs p.parent disk with
      | (.error e, fs) => (.error e, fs)
      | (.ok (), fs) =>
        match fs.makeDirectory p disk with
        | .ok fs => (.ok (), fs)
        | .error e => (fs.settle p e, fs)
  | .error e => (fs.settle p e, fs)
termination_by p.parts.length

end QuantumRisk.FileSystem

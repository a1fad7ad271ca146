import QuantumRisk.Path
import QuantumRisk.Text.Quoted

/-!
# The tree of files

A file system is a finite table from places to entries, together with the current directory. A place
is the list of names from the root down, so that it names an entry without links or dots on the way.
A path is a description that has to be walked: links are followed, double dots go up, and the walk
may be refused. No link is followed more than a fixed number of times in one walk, so that walks end
even in a circle of links.

Entries have no owners, permissions or attributes, and the tree has room for any of them: what is
refused here is refused for its names. What a disk may refuse beyond this is its own answer
(`Disk`).
-/

namespace QuantumRisk

/-- The names from the root down to an entry. -/
abbrev Place := List String

/-- What a name stands for. -/
inductive Entry where
  | file (bytes : List UInt8)
  | directory
  | link (target : String)
  deriving DecidableEq, Inhabited, Repr

namespace Entry

def isFile : Entry → Bool
  | .file _ => true
  | _ => false

def isDirectory : Entry → Bool
  | .directory => true
  | _ => false

end Entry

/-- Why the system refuses a path. -/
inductive Refusal where
  | notPermitted
  | noEntry
  | inputOutput
  | accessDenied
  | exists
  | notDirectory
  | isDirectory
  | noSpace
  | readOnly
  | nameTooLong
  | tooManyLinks
  deriving DecidableEq, Inhabited, Repr

namespace Refusal

def number : Refusal → Nat
  | .notPermitted => 1
  | .noEntry => 2
  | .inputOutput => 5
  | .accessDenied => 13
  | .exists => 17
  | .notDirectory => 20
  | .isDirectory => 21
  | .noSpace => 28
  | .readOnly => 30
  | .nameTooLong => 36
  | .tooManyLinks => 40

def text : Refusal → String
  | .notPermitted => "Operation not permitted"
  | .noEntry => "No such file or directory"
  | .inputOutput => "Input/output error"
  | .accessDenied => "Permission denied"
  | .exists => "File exists"
  | .notDirectory => "Not a directory"
  | .isDirectory => "Is a directory"
  | .noSpace => "No space left on device"
  | .readOnly => "Read-only file system"
  | .nameTooLong => "File name too long"
  | .tooManyLinks => "Too many levels of symbolic links"

/-- Refusals that only mean that nothing is there. -/
def meansAbsent : Refusal → Bool
  | .noEntry => true
  | .notDirectory => true
  | .tooManyLinks => true
  | _ => false

end Refusal

/-- Why a path cannot be used. -/
inductive PathFault where
  | refused (reason : Refusal) (path : String)
  | nullByte
  | linkLoop (path : String)
  | noHome
  deriving DecidableEq, Inhabited, Repr

def PathFault.message : PathFault → String
  | .refused reason path =>
    "[Errno " ++ toString reason.number ++ "] " ++ reason.text ++ ": " ++ Text.quoted path
  | .nullByte => "embedded null byte"
  | .linkLoop path => "Symlink loop from " ++ Text.quoted path
  | .noHome => "Could not determine home directory."

structure FileSystem where
  entries : List (Place × Entry)
  current : Place
  deriving Inhabited

namespace FileSystem

/-! ## The table -/

/-- The entry at a place; the root is always a directory. -/
def entryAt (fs : FileSystem) (place : Place) : Option Entry :=
  if place = [] then some .directory else List.lookup place fs.entries

/-- Set the entry at a place; a place that is there keeps its position in the table. -/
def putEntry (place : Place) (e : Entry) : List (Place × Entry) → List (Place × Entry)
  | [] => [(place, e)]
  | (q, old) :: rest => if q = place then (q, e) :: rest else (q, old) :: putEntry place e rest

def put (fs : FileSystem) (place : Place) (e : Entry) : FileSystem :=
  { fs with entries := putEntry place e fs.entries }

/-- Remove the entry at a place. -/
def erase (fs : FileSystem) (place : Place) : FileSystem :=
  { fs with entries := fs.entries.filter (·.1 ≠ place) }

/-- The name that a place has in a directory, if it lies there. -/
def nameIn (directory place : Place) : Option String :=
  match directory, place with
  | [], [name] => some name
  | d :: ds, q :: qs => if d = q then nameIn ds qs else none
  | _, _ => none

/-- The names in a directory, in the order of the table. -/
def namesIn (fs : FileSystem) (directory : Place) : List String :=
  fs.entries.filterMap fun (q, _) ↦ nameIn directory q

/-! ## Walking a path -/

/-- The number of links that one walk may follow. -/
def linkLimit : Nat := 40

/-- The number of bytes that a name may have. -/
def nameLimit : Nat := 255

/-- The number of bytes that a path has to stay below. -/
def pathLimit : Nat := 4096

/-- The names of a link's target. A slash at the end asks for a directory, as a dot does. -/
def targetNames (target : String) : List String :=
  let parts := Path.split target.toList
  (Path.ofString target).parts ++
    match parts.getLast? with
    | some [] => ["."]
    | some ['.'] => ["."]
    | _ => []

/-- Where the walk of a path begins. -/
def origin (absolute : Bool) (place : Place) : Place :=
  if absolute then [] else place

/-- Walk names from a directory. The last name need not exist; it is followed if it is a link and
`follow` holds. -/
def walk (fs : FileSystem) (follow : Bool) (links : Nat) (place : Place) (names : List String) :
    Except Refusal Place :=
  match names with
  | [] => .ok place
  | name :: rest =>
    if name = "." then walk fs follow links place rest
    else if name = ".." then walk fs follow links place.dropLast rest
    else if name.utf8ByteSize > nameLimit then .error .nameTooLong
    else
      match fs.entryAt (place ++ [name]) with
      | none => if rest = [] then .ok (place ++ [name]) else .error .noEntry
      | some .directory => walk fs follow links (place ++ [name]) rest
      | some (.file _) => if rest = [] then .ok (place ++ [name]) else .error .notDirectory
      | some (.link target) =>
        if rest = [] ∧ ¬ follow then .ok (place ++ [name])
        else
          match links with
          | 0 => .error .tooManyLinks
          | links + 1 =>
            walk fs follow links (origin (Path.ofString target).isAbsolute place)
              (targetNames target ++ rest)
termination_by (links, names.length)

/-- The place that a path leads to; its last name need not exist. -/
def locate (fs : FileSystem) (follow : Bool) (p : Path) : Except PathFault Place :=
  if p.text.contains '\x00' then .error .nullByte
  else if p.text.utf8ByteSize ≥ pathLimit then .error (.refused .nameTooLong p.text)
  else
    match fs.walk follow linkLimit (origin p.isAbsolute fs.current) p.parts with
    | .ok place => .ok place
    | .error r => .error (.refused r p.text)

/-! ## Absolute places without a walk -/

/-- Apply one name to a place, going by the names alone. -/
def step (place : Place) (name : String) : Place :=
  if name = "." then place else if name = ".." then place.dropLast else place ++ [name]

/-- The place of a path by its names alone: double dots take back the name before them. -/
def lexical (fs : FileSystem) (p : Path) : Place :=
  p.parts.foldl step (origin p.isAbsolute fs.current)

/-- The absolute path of a place. -/
def pathOf (place : Place) : Path := ⟨"/", place⟩

end FileSystem

end QuantumRisk

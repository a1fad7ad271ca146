import QuantumRisk.FileSystem.Basic

/-!
# What a disk refuses

The tree decides by its names what can be done. The disk that it lies on may refuse more: it is
full, a directory must not be changed, an entry must not be taken away. Nothing is known of its
reasons, so a disk is its answers and no more. On the willing disk the tree alone decides.

A disk is asked about changes. That an entry is there and cannot be read does not occur.
-/

namespace QuantumRisk

/-- What can be done to the tree at a path. -/
inductive Change where
  | makeDirectory
  | create
  | link
  | remove
  deriving DecidableEq, Inhabited, Repr

/-- The answers of a disk. -/
structure Disk where
  /-- Why a change is refused that the tree allows. -/
  refuses : Change → Path → Option Refusal
  /-- How many of some bytes come into a new file and why no more, unless all of them do. -/
  stops : Path → List UInt8 → Option (Nat × Refusal)
  deriving Inhabited

namespace Disk

/-- The disk that refuses nothing. -/
def willing : Disk := ⟨fun _ _ ↦ none, fun _ _ ↦ none⟩

/-- The outcome of a change on the tree, unless the disk refuses it. -/
def allow (disk : Disk) (change : Change) (p : Path) (outcome : Except PathFault FileSystem) :
    Except PathFault FileSystem :=
  match disk.refuses change p with
  | none => outcome
  | some reason =>
    match outcome with
    | .ok _ => .error (.refused reason p.text)
    | .error fault => .error fault

/-- What of some bytes comes into a new file, and why no more. -/
def taken (disk : Disk) (p : Path) (bytes : List UInt8) : List UInt8 × Option Refusal :=
  match disk.stops p bytes with
  | none => (bytes, none)
  | some (n, reason) => (bytes.take n, some reason)

@[simp]
theorem allow_willing (change : Change) (p : Path) (outcome : Except PathFault FileSystem) :
    willing.allow change p outcome = outcome :=
  rfl

@[simp]
theorem allow_of_error (disk : Disk) (change : Change) (p : Path) (fault : PathFault) :
    disk.allow change p (.error fault) = .error fault := by
  rw [allow]
  split <;> rfl

theorem allow_ok {disk : Disk} {change : Change} {p : Path} {fs : FileSystem}
    {outcome : Except PathFault FileSystem} (h : disk.allow change p outcome = .ok fs) :
    outcome = .ok fs := by
  rw [allow] at h
  split at h
  · exact h
  · split at h
    · cases h
    · cases h

theorem taken_all {disk : Disk} {p : Path} {bytes got : List UInt8}
    (h : disk.taken p bytes = (got, none)) : got = bytes := by
  rw [taken] at h
  split at h
  · cases h
    rfl
  · cases h

end Disk

end QuantumRisk

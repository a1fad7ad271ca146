import QuantumRisk.FileSystem.Basic

/-!
# Canonical places

The canonical place of a path has all links replaced by what they lead to. Names that do not exist
are kept, and double dots behind them take them back. Each link is replaced at most once; a link
that leads back to itself has no canonical place. A link that lies too deep is not seen at all.
-/

namespace QuantumRisk.FileSystem

/-- What is left to do: a name to apply, or the end of a link that was begun. -/
inductive Leg where
  | name (name : String)
  | ending (link : Place)

/-- The names that are left. -/
def Leg.names (legs : List Leg) : List String :=
  legs.filterMap fun
    | .name n => some n
    | .ending _ => none

/-- The target of the link at a place, if there is one. -/
def linkAt (fs : FileSystem) (place : Place) : Option String :=
  match fs.entryAt place with
  | some (.link target) => some target
  | _ => none

/-- The target of the link at a place, if the system can be asked about its path: one that is too
long is passed over like a name that does not exist. -/
def linkSeen (fs : FileSystem) (place : Place) : Option String :=
  if (pathOf place).text.utf8ByteSize < pathLimit then fs.linkAt place else none

/-- Apply what is left to a place. `fuel` bounds the number of links that are replaced; `ends` holds
for each link begun so far where it leads, or nothing while that is not known. -/
def canonical (fs : FileSystem) (fuel : Nat) (ends : List (Place × Option Place)) (place : Place)
    (legs : List Leg) : Place :=
  match legs with
  | [] => place
  | .ending link :: rest => canonical fs fuel ((link, some place) :: ends) place rest
  | .name name :: rest =>
    if name = "." ∨ name = ".." then canonical fs fuel ends (step place name) rest
    else
      match fs.linkSeen (place ++ [name]) with
      | none => canonical fs fuel ends (place ++ [name]) rest
      | some target =>
        match List.lookup (place ++ [name]) ends with
        | some (some goal) => canonical fs fuel ends goal rest
        | some none => (Leg.names rest).foldl step (place ++ [name])
        | none =>
          match fuel with
          | 0 => (Leg.names rest).foldl step (place ++ [name])
          | fuel + 1 =>
            let inside := (Path.ofString target).parts.map Leg.name
            canonical fs fuel ((place ++ [name], none) :: ends)
              (origin (Path.ofString target).isAbsolute place)
              (inside ++ Leg.ending (place ++ [name]) :: rest)
termination_by (fuel, legs.length)

/-- The canonical place of a path. -/
def realPlace (fs : FileSystem) (p : Path) : Except PathFault Place :=
  if p.text.contains '\x00' then .error .nullByte
  else
    let place := fs.canonical (fs.entries.length + 1) [] (origin p.isAbsolute fs.current)
      (p.parts.map .name)
    match fs.locate true (pathOf place) with
    | .error (.refused .tooManyLinks path) => .error (.linkLoop path)
    | _ => .ok place

end QuantumRisk.FileSystem

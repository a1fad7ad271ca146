/-!
# Paths

A path is an anchor (empty, one slash, or two slashes) and a list of components. Empty components
and single dots are dropped when a path is read; double dots stay, because a component before them
may be a link.
-/

namespace QuantumRisk

structure Path where
  /-- Empty for a relative path, `"/"` or `"//"` for an absolute one. -/
  anchor : String
  parts : List String
  deriving DecidableEq, Inhabited, Repr

namespace Path

/-- The components of a text between slashes. -/
def split (cs : List Char) : List (List Char) :=
  match cs with
  | [] => [[]]
  | '/' :: rest => [] :: split rest
  | c :: rest =>
    match split rest with
    | [] => [[c]]
    | part :: parts => (c :: part) :: parts

/-- Components that say something. -/
def components (cs : List Char) : List String :=
  ((split cs).map String.ofList).filter fun p ↦ p != "" && p != "."

/-- The anchor of a text: exactly two leading slashes are an anchor of their own. -/
def anchorOf (cs : List Char) : String :=
  match cs with
  | '/' :: '/' :: '/' :: _ => "/"
  | '/' :: '/' :: _ => "//"
  | '/' :: _ => "/"
  | _ => ""

/-- Read a path. -/
def ofString (s : String) : Path := ⟨anchorOf s.toList, components s.toList⟩

/-- The text of a path; the empty relative path is a dot. -/
def text (p : Path) : String :=
  if p.anchor == "" && p.parts.isEmpty then "." else p.anchor ++ String.intercalate "/" p.parts

def isAbsolute (p : Path) : Bool := p.anchor != ""

/-- The last component, if any. -/
def name (p : Path) : String := p.parts.getLast?.getD ""

/-- Everything but the last component. -/
def parent (p : Path) : Path := { p with parts := p.parts.dropLast }

/-- A path seen from another one: an absolute path stays as it is. -/
def join (p q : Path) : Path := if q.isAbsolute then q else { p with parts := p.parts ++ q.parts }

/-- Append one text to a path. -/
def append (p : Path) (s : String) : Path := p.join (ofString s)

end Path

end QuantumRisk

import QuantumRisk.Ast.Node

/-!
# Findings

A finding is one place where a risk pattern occurs. Findings are counted by kind; a table of counts
keeps the order in which kinds were first entered.
-/

namespace QuantumRisk

inductive FindingKind where
  | ecrecoverUsage
  | keyExposure
  deriving DecidableEq, Inhabited, Repr

namespace FindingKind

def name : FindingKind → String
  | .ecrecoverUsage => "ECRECOVER_USAGE"
  | .keyExposure => "KEY_EXPOSURE"

def all : List FindingKind := [.ecrecoverUsage, .keyExposure]

/-- The kind of a name. -/
def ofName? (s : String) : Option FindingKind := all.find? (·.name == s)

theorem ofName?_name (k : FindingKind) : ofName? k.name = some k := by cases k <;> rfl

end FindingKind

structure Finding where
  /-- The rule that made the finding. -/
  rule : String
  kind : FindingKind
  message : String
  name : Json
  location : Option Ast.Location
  deriving Inhabited

/-- Counts by kind, in the order of first entry. -/
abbrev Counts := List (FindingKind × Int)

namespace Counts

/-- The count of a kind, zero if it was never entered. -/
def get (cs : Counts) (k : FindingKind) : Int := (List.lookup k cs).getD 0

/-- Set the count of a kind; a kind that is there keeps its place. -/
def set (cs : Counts) (k : FindingKind) (n : Int) : Counts :=
  match cs with
  | [] => [(k, n)]
  | (l, m) :: rest => if l = k then (l, n) :: rest else (l, m) :: set rest k n

/-- Enter a kind with count zero unless it is there. -/
def enter (cs : Counts) (k : FindingKind) : Counts :=
  if cs.any (·.1 = k) then cs else cs ++ [(k, 0)]

def increment (cs : Counts) (k : FindingKind) : Counts := cs.set k (cs.get k + 1)

end Counts

/-- The findings of one walk, in order, and their counts. -/
structure MatchResult where
  findings : List Finding := []
  counts : Counts := []

namespace MatchResult

def add (r : MatchResult) (f : Finding) : MatchResult :=
  { findings := r.findings ++ [f], counts := r.counts.increment f.kind }

def count (r : MatchResult) (k : FindingKind) : Int := r.counts.get k

def messages (r : MatchResult) : List String := r.findings.map (·.message)

end MatchResult

end QuantumRisk

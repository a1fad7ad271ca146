/-!
# Sets of token kinds

A token kind is a number: its place in a vocabulary, with `0` kept for the end of the input. Sets of
kinds are bit masks, so that union and membership are one machine step each and the elements come
out in vocabulary order, which is the order in which messages list them.
-/

namespace QuantumRisk.Grammar

/-- The place of a token class in the vocabulary. -/
abbrev Kind := Nat

/-- The kind of the token that closes every input. -/
def endOfInput : Kind := 0

/-- A finite set of kinds, as a bit mask. -/
structure KindSet where
  /-- Bit `k` is set when kind `k` is a member. -/
  bits : Nat := 0
  deriving DecidableEq, Inhabited

namespace KindSet

def empty : KindSet := ⟨0⟩

def contains (s : KindSet) (k : Kind) : Bool := s.bits.testBit k

def insert (s : KindSet) (k : Kind) : KindSet := ⟨s.bits ||| (1 <<< k)⟩

def union (s t : KindSet) : KindSet := ⟨s.bits ||| t.bits⟩

def ofList (ks : List Kind) : KindSet := ks.foldl insert empty

def isEmpty (s : KindSet) : Bool := s.bits == 0

def disjoint (s t : KindSet) : Bool := s.bits &&& t.bits == 0

/-- The members in vocabulary order. -/
def toList (s : KindSet) : List Kind :=
  if s.isEmpty then [] else (List.range (s.bits.log2 + 1)).filter s.contains

@[simp] theorem contains_union (s t : KindSet) (k : Kind) :
    (s.union t).contains k = (s.contains k || t.contains k) := by
  simp [contains, union]

@[simp] theorem contains_empty (k : Kind) : empty.contains k = false := by
  simp [contains, empty]

end KindSet

end QuantumRisk.Grammar

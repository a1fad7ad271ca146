import QuantumRisk.Grammar.KindSet

/-!
# Grammars as values

The grammar of a language is an array of rules, and a rule is a list of branches. A branch is a
sequence of phrases: tokens, choices of tokens, calls of other rules, and the usual repetitions.

## Left recursion

A rule whose branches call the rule itself in first position describes operators. Such a rule is
*climbed*: `Rule.climb` separates the branches that start something (`primaries`) from those that
extend what was read so far (`operators`). The branch at place `i` of `n` binds with level `n - i`,
so earlier branches bind tighter. An operator is tried only while its level is at least the level
that the caller asked for, and its right operand is read one level higher, which makes every binary
operator associate to the left.
-/

namespace QuantumRisk.Grammar

/-- A piece of a branch. -/
inductive Phrase where
  /-- One token. -/
  | token (kind : Kind)
  /-- Any one of several tokens. -/
  | oneOf (kinds : List Kind)
  /-- A call of a rule, read at a binding level (`0` unless the rule is climbed). -/
  | call (rule level : Nat)
  /-- The start of an operator: the node read so far becomes its first child. -/
  | extend (level : Nat)
  | choice (branches : List (List Phrase))
  | optional (branches : List (List Phrase))
  | star (branches : List (List Phrase))
  | plus (branches : List (List Phrase))
  deriving Inhabited

/-- A branch is a sequence of phrases. -/
abbrev Branch := List Phrase

/-- A named rule with its branches in order of preference. -/
structure Rule where
  name : String
  branches : List Branch
  deriving Inhabited

/-- The rules of a language; calls refer to them by place. -/
structure Language where
  rules : Array Rule
  deriving Inhabited

/-- A rule body after left recursion has been resolved. -/
inductive Body where
  | plain (branches : List Branch)
  | climbed (primaries operators : List Branch)
  deriving Inhabited

namespace Branch

/-- Does the branch begin with a call of rule `r`? -/
def startsWith (r : Nat) : Branch → Bool
  | .call q _ :: _ => q == r
  | _ => false

/-- Does the branch end with a call of rule `r`? -/
def endsWith (r : Nat) (b : Branch) : Bool :=
  match b.getLast? with
  | some (.call q _) => q == r
  | _ => false

/-- Read the closing call of the branch at a given level. -/
def closeAt (r level : Nat) (b : Branch) : Branch :=
  b.dropLast ++ [.call r level]

/-- The branch as it starts something, if it does. -/
def primary? (r level : Nat) (b : Branch) : Option Branch :=
  if startsWith r b then none
  else if endsWith r b then some (closeAt r level b)
  else some b

/-- The branch as an operator between two operands, if it is one. -/
def binary? (r level : Nat) (b : Branch) : Option Branch :=
  if startsWith r b && endsWith r b.tail then
    some (Phrase.extend level :: closeAt r (level + 1) b.tail)
  else none

/-- The branch as an operator behind its only operand, if it is one. -/
def suffix? (r level : Nat) (b : Branch) : Option Branch :=
  if startsWith r b && !endsWith r b.tail then some (Phrase.extend level :: b.tail) else none

end Branch

namespace Rule

/-- The branches with the levels at which they bind. -/
def graded (rule : Rule) : List (Nat × Branch) :=
  let n := rule.branches.length
  (List.range n).zip rule.branches |>.map fun (i, b) ↦ (n - i, b)

/-- Resolve the left recursion of rule number `r`. Operators with two operands come before
those that only follow one. -/
def climb (r : Nat) (rule : Rule) : Body :=
  if rule.branches.any (Branch.startsWith r) then
    .climbed (rule.graded.filterMap fun (level, b) ↦ Branch.primary? r level b)
      (rule.graded.filterMap (fun (level, b) ↦ Branch.binary? r level b)
        ++ rule.graded.filterMap fun (level, b) ↦ Branch.suffix? r level b)
  else .plain rule.branches

end Rule

end QuantumRisk.Grammar

import QuantumRisk.Grammar.Phrase
import Std.Data.TreeMap

/-!
# Transition networks

Every rule becomes a small network of states: one state in front of each token, set or call, and the
states that open and close choices and loops. `Network.ofLanguage` lays the network out and, in the
same pass, the `Step`s that an interpreter follows; a step carries the number of the state at which
it happens, because both prediction and error recovery reason about states.

Rule `r` starts at state `2 * r` and stops at the next; the states in between are numbered as they
are met. A state is entered in the table once all that it leads to has a number.

A rule's stop state has an edge back to every place from which the rule is called. Those edges are
only followed when nothing is known about the caller.
-/

namespace QuantumRisk.Grammar

/-- The roles of states. -/
inductive StateRole where
  | basic
  | ruleStart
  | ruleStop
  | blockStart
  | starBlockStart
  | plusBlockStart
  | blockEnd
  | starEntry
  | starBack
  | plusBack
  | loopEnd
  deriving DecidableEq, Inhabited

/-- A way from one state to the next. -/
inductive Edge where
  | free (target : Nat)
  | token (kind : Kind) (target : Nat)
  | oneOf (kinds : KindSet) (target : Nat)
  /-- Call of a rule: its start state, and the state to continue at afterwards. -/
  | call (rule level target follow : Nat)
  /-- Passable only at binding levels up to `level`. -/
  | guarded (level target : Nat)
  /-- From a stop state back to a caller. The rule is named when it is a climbed rule that was
  called at level `0`. -/
  | unwind (target : Nat) (outermost : Option Nat)
  deriving Inhabited

namespace Edge

def target : Edge → Nat
  | .free t | .token _ t | .oneOf _ t | .call _ _ t _ | .guarded _ t | .unwind t _ => t

/-- Is the edge passed without reading a token? -/
def isFree : Edge → Bool
  | .token .. | .oneOf .. => false
  | _ => true

/-- Does the edge read a token of kind `k`? -/
def reads (k : Kind) : Edge → Bool
  | .token k' _ => k == k'
  | .oneOf ks _ => ks.contains k
  | _ => false

end Edge

structure NetState where
  role : StateRole := .basic
  rule : Nat := 0
  edges : List Edge := []
  /-- For a state that opens a block: the state that closes it. -/
  close : Nat := 0
  /-- The entry of the operator loop of a climbed rule. -/
  operatorLoop : Bool := false
  deriving Inhabited

/-- The interpreter's view of a phrase. -/
inductive Step where
  | token (state : Nat) (kind : Kind)
  | oneOf (state : Nat) (kinds : KindSet)
  | call (state rule level : Nat)
  | extend (state level : Nat)
  | choice (state : Nat) (branches : List (List Step))
  | optional (state : Nat) (branches : List (List Step))
  | star (entry back : Nat) (body : List Step)
  | plus (start back : Nat) (body : List Step)
  deriving Inhabited

/-- What the interpreter does for a whole rule. -/
structure Procedure where
  start : Nat := 0
  stop : Nat := 0
  climbed : Bool := false
  steps : List Step := []
  deriving Inhabited

structure Network where
  states : Std.TreeMap Nat NetState
  procedures : Array Procedure
  deriving Inhabited

namespace Network

def state (net : Network) (s : Nat) : NetState := net.states.getD s default

def procedure (net : Network) (r : Nat) : Procedure := net.procedures.getD r default

/-- The state to continue at after the call that leaves state `s`. -/
def followOf (net : Network) (s : Nat) : Nat :=
  match (net.state s).edges.head? with
  | some (Edge.call _ _ _ follow) => follow
  | _ => s

def startOf (r : Nat) : Nat := 2 * r

def stopOf (r : Nat) : Nat := 2 * r + 1

/-! ## Layout -/

/-- What has been laid out so far. -/
structure Plan where
  /-- The next number that no state has. -/
  next : Nat
  states : Std.TreeMap Nat NetState := ∅

abbrev Layout := StateM Plan

namespace Layout

/-- A number for a state that is still to be entered. -/
def fresh : Layout Nat :=
  modifyGet fun plan ↦ (plan.next, { plan with next := plan.next + 1 })

def enter (s : Nat) (st : NetState) : Layout Unit :=
  modify fun plan ↦ { plan with states := plan.states.insert s st }

/-- The edges to the first states of branches. -/
def openings (laid : List (Nat × List Step)) : List Edge := laid.map fun b ↦ .free b.1

/-- The steps of branches. -/
def paths (laid : List (Nat × List Step)) : List (List Step) := laid.map (·.2)

/-- The body of a loop: its only branch, or a choice at state `s` between several. -/
def loopBody (s : Nat) : List (List Step) → List Step
  | [only] => only
  | bs => [.choice s bs]

mutual

/-- Lay out a phrase of rule `r` in front of state `target`; the result is its first state. -/
def phrase (r target : Nat) : Phrase → Layout (Nat × Step)
  | .token kind => do
    let s ← fresh
    enter s { rule := r, edges := [.token kind target] }
    return (s, .token s kind)
  | .oneOf kinds => do
    let s ← fresh
    enter s { rule := r, edges := [.oneOf (.ofList kinds) target] }
    return (s, .oneOf s (.ofList kinds))
  | .call rule level => do
    let s ← fresh
    enter s { rule := r, edges := [.call rule level (startOf rule) target] }
    return (s, .call s rule level)
  | .extend level => do
    let s ← fresh
    enter s { rule := r, edges := [.guarded level target] }
    return (s, .extend s level)
  | .choice bs => do
    let s ← fresh
    let e ← fresh
    let laid ← branches r e bs
    enter s { role := .blockStart, rule := r, edges := openings laid, close := e }
    enter e { role := .blockEnd, rule := r, edges := [.free target] }
    return (s, .choice s (paths laid))
  | .optional bs => do
    let s ← fresh
    let e ← fresh
    let laid ← branches r e bs
    enter s { role := .blockStart, rule := r, edges := openings laid ++ [.free e], close := e }
    enter e { role := .blockEnd, rule := r, edges := [.free target] }
    return (s, .optional s (paths laid))
  | .star bs => do
    let s ← fresh
    let e ← fresh
    let laid ← branches r e bs
    let entry ← fresh
    let done ← fresh
    let back ← fresh
    enter s { role := .starBlockStart, rule := r, edges := openings laid, close := e }
    enter e { role := .blockEnd, rule := r, edges := [.free back] }
    enter entry { role := .starEntry, rule := r, edges := [.free s, .free done] }
    enter done { role := .loopEnd, rule := r, edges := [.free target] }
    enter back { role := .starBack, rule := r, edges := [.free entry] }
    return (entry, .star entry back (loopBody s (paths laid)))
  | .plus bs => do
    let s ← fresh
    let e ← fresh
    let laid ← branches r e bs
    let back ← fresh
    let done ← fresh
    enter s { role := .plusBlockStart, rule := r, edges := openings laid, close := e }
    enter e { role := .blockEnd, rule := r, edges := [.free back] }
    enter back { role := .plusBack, rule := r, edges := [.free s, .free done] }
    enter done { role := .loopEnd, rule := r, edges := [.free target] }
    return (s, .plus s back (loopBody s (paths laid)))

/-- Lay out a sequence from its last phrase to its first. -/
def sequence (r target : Nat) : List Phrase → Layout (Nat × List Step)
  | [] => return (target, [])
  | p :: ps => do
    let (next, rest) ← sequence r target ps
    let (s, step) ← phrase r next p
    return (s, step :: rest)

/-- Lay out the branches of a block in front of its closing state, each with its first state. -/
def branches (r closing : Nat) : List (List Phrase) → Layout (List (Nat × List Step))
  | [] => return []
  | b :: bs => do
    let first ← sequence r closing b
    let rest ← branches r closing bs
    return first :: rest

end

/-- Mark the first step of a climbed rule's operator loop. -/
def markLoop (s : Nat) : Layout Unit :=
  modify fun plan ↦
    { plan with states := plan.states.modify s fun st ↦ { st with operatorLoop := true } }

/-- The start state of rule `r`, in front of its first state. -/
def start (r first : Nat) : Layout Unit :=
  enter (startOf r) { role := .ruleStart, rule := r, edges := [.free first] }

/-- Lay out one rule between its start and stop states. -/
def rule (r : Nat) (body : Body) : Layout Procedure := do
  match body with
  | .plain [only] =>
    let (s, steps) ← sequence r (stopOf r) only
    start r s
    return { start := startOf r, stop := stopOf r, steps }
  | .plain bs =>
    let (s, step) ← phrase r (stopOf r) (.choice bs)
    start r s
    return { start := startOf r, stop := stopOf r, steps := [step] }
  | .climbed primaries operators =>
    let (entry, loop) ← phrase r (stopOf r) (.star operators)
    markLoop entry
    let (s, step) ← phrase r entry (.choice primaries)
    start r s
    return { start := startOf r, stop := stopOf r, climbed := true, steps := [step, loop] }

/-- Lay out the rules of a language one after the other. -/
def rules (l : Language) : Layout (List Procedure) :=
  (List.range l.rules.size).mapM fun r ↦ rule r ((l.rules.getD r default).climb r)

end Layout

/-- The calls of rules: the rule, its level, and the state to continue at. -/
def calls (states : Std.TreeMap Nat NetState) : List (Nat × Nat × Nat) :=
  states.toList.flatMap fun (_, st) ↦ st.edges.filterMap fun
    | .call rule level _ follow => some (rule, level, follow)
    | _ => none

/-- The edges from the stop state of rule `r` back to its callers. -/
def returnEdges (calls : List (Nat × Nat × Nat)) (r : Nat) (climbed : Bool) : List Edge :=
  calls.filterMap fun (rule, level, follow) ↦
    if rule == r then
      some (.unwind follow (if level == 0 && climbed then some rule else none))
    else none

/-- The network of a language. -/
def ofLanguage (l : Language) : Network :=
  let n := l.rules.size
  let (procedures, plan) := (Layout.rules l).run { next := startOf n }
  let calls := calls plan.states
  let states := ((List.range n).zip procedures).foldl (fun acc (r, p) ↦
    acc.insert (stopOf r)
      { role := .ruleStop, rule := r, edges := returnEdges calls r p.climbed }) plan.states
  { states, procedures := procedures.toArray }

end Network

end QuantumRisk.Grammar

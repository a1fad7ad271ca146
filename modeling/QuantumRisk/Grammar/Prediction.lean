import QuantumRisk.Grammar.Lookahead
import QuantumRisk.Grammar.Stacks
import Std.Data.TreeSet

/-!
# Adaptive prediction

At a decision that one token does not settle, all branches are followed at once through the network,
reading as many tokens as it takes. The set of places reached is a set of `Config`s: a state, the
branch that led there, and the stacks of pending returns.

The first attempt knows nothing about the callers of the current rule (the empty stack means "any
caller"). If two branches meet in the same places, the tokens are read again with the real stack of
callers. If they still meet, the input is ambiguous and the earlier branch wins.

Binding levels take part as follows. An operator is only taken while its level is at least the
current one, so the levels passed before the first token is read are kept on the configs (`level`)
and checked once the branch is known. At the entry of an operator loop they are checked at once
(`filterByLevel`), and the places that are also reached by entering the loop are removed from the
branch that leaves it.

No answer depends on how the steps are shared between predictions; `Reader` remembers them by the
tokens read, which saves most of the work.
-/

namespace QuantumRisk.Grammar

/-- A place reached while predicting. -/
structure Config where
  state : Nat
  branch : Nat
  stack : StackId
  /-- The binding level that was passed on the way, if any. -/
  level : Option Nat := none
  /-- How often the search has left the rule it started in. -/
  outside : Nat := 0
  /-- Kept when leaving and entering an operator loop reach the same place. -/
  keep : Bool := false
  deriving Ord, Inhabited

/-- Configs in order of discovery, one for each state, branch and level. -/
structure ConfigSet where
  items : Array Config := #[]
  /-- Where among the items the config with a key is. -/
  places : Std.TreeMap (List Nat) Nat := ∅
  deriving Inhabited

namespace ConfigSet

/-- The only branch that is left, if there is only one. -/
def onlyBranch (s : ConfigSet) : Option Nat :=
  match s.items[0]? with
  | none => none
  | some (c : Config) => if s.items.toList.all (·.branch == c.branch) then some c.branch else none

/-- The branches that are left, in increasing order. -/
def branches (s : ConfigSet) : List Nat :=
  let all := s.items.foldl (fun acc c ↦ KindSet.insert acc c.branch) KindSet.empty
  all.toList

/-- The branches that meet in each pair of a state and a set of stacks. -/
def meetings (s : ConfigSet) : List KindSet :=
  let groups : Std.TreeMap (List Nat) KindSet := s.items.foldl (fun acc c ↦
    acc.insert [c.state, c.stack] ((acc.getD [c.state, c.stack] .empty).insert c.branch)) ∅
  groups.toList.map (·.2)

/-- The branches that reach each state. -/
def byState (s : ConfigSet) : List KindSet :=
  let groups : Std.TreeMap Nat KindSet := s.items.foldl (fun acc c ↦
    acc.insert c.state ((acc.getD c.state .empty).insert c.branch)) ∅
  groups.toList.map (·.2)

end ConfigSet

/-- What one prediction is made for. -/
structure Outlook where
  net : Network
  /-- The real callers are known. -/
  full : Bool
  /-- The binding level of the rule being read. -/
  level : Nat
  /-- The rule whose operator loop is being decided, if the decision is one. -/
  loopRule : Option Nat

/-- The state of a search: the configs found, and the places not to be entered again. -/
structure Finder where
  pile : Stacks
  found : ConfigSet := {}
  busy : Std.TreeSet Config := ∅

namespace Outlook

/-- More than any real stack is deep. -/
def depthBound : Nat := 100000

/-- Add a config, joining its stacks with those of a config at the same place. -/
def add (o : Outlook) (c : Config) : StateM Finder Unit := do
  let st ← get
  let key := c.state :: c.branch :: c.level.toList
  match st.found.places[key]? with
  | none =>
    set { st with found := { items := st.found.items.push c,
                             places := st.found.places.insert key st.found.items.size } }
  | some i =>
    let old := st.found.items.getD i c
    let (stack, pile) := (Stacks.merge (!o.full) depthBound old.stack c.stack).run st.pile
    let joined :=
      { old with stack, outside := max old.outside c.outside, keep := old.keep || c.keep }
    set { st with pile, found := { st.found with items := st.found.items.setIfInBounds i joined } }

/-- At the entry of an operator loop that was itself reached at the end of an operand, entering the
loop again leads nowhere new: the operand has already taken all operators it can. -/
def skipsLoop (o : Outlook) (pile : Stacks) (c : Config) : Bool :=
  let here := o.net.state c.state
  let node := pile.node c.stack
  if here.role != .starEntry || !here.operatorLoop || node.hasEmpty then false
  else
    let close := match here.edges.head? with
      | some e => (o.net.state e.target).close
      | none => 0
    node.tops.all fun (back, _) ↦
      let st := o.net.state back
      match st.edges.head? with
      | some e =>
        st.rule == here.rule && st.edges.length == 1 && e.isFree &&
          ((st.role == .blockEnd && e.target == c.state)
            || back == close
            || e.target == close
            || (let after := o.net.state e.target
                after.role == .blockEnd && after.edges.length == 1 &&
                  (after.edges.all fun e' ↦ e'.isFree && e'.target == c.state)))
      | none => false

/-- The config behind a free edge, if the edge can be passed. -/
def pass (o : Outlook) (eofFree collect : Bool) (depth : Int) (c : Config) (e : Edge) :
    StateM Finder (Option Config) := do
  match e with
  | .free t | .unwind t _ => return some { c with state := t }
  | .call _ _ t follow =>
    let st ← get
    let (stack, pile) := (Stacks.push follow c.stack).run st.pile
    set { st with pile }
    return some { c with state := t, stack }
  | .guarded level t =>
    if collect && depth == 0 then
      if o.full then
        return if level ≥ o.level then some { c with state := t } else none
      else return some { c with state := t, level := some (min (c.level.getD level) level) }
    else return some { c with state := t }
  | .token k t => return if eofFree && k == endOfInput then some { c with state := t } else none
  | .oneOf ks t =>
    return if eofFree && ks.contains endOfInput then some { c with state := t } else none

/-- The edges out of a state, once the stop states have been dealt with; `visit` goes on behind
them. -/
def leaveBy (o : Outlook) (eofFree : Bool) (visit : Int → Config → StateM Finder Unit)
    (collect : Bool) (depth : Int) (c : Config) (here : NetState) : StateM Finder Unit := do
  if here.edges.isEmpty || here.edges.any (!·.isFree) then add o c
  let mut entering := true
  for e in here.edges do
    if entering && skipsLoop o (← get).pile c then
      entering := false
      continue
    entering := false
    match ← pass o eofFree collect depth c e with
    | none => pure ()
    | some c' =>
      if here.role == .ruleStop then
        let keep := match e with
          | .unwind _ (some r) => c'.keep || o.loopRule == some r
          | _ => c'.keep
        let c' := { c' with keep, outside := c'.outside + 1 }
        let mark := { c' with outside := 0 }
        if !(← get).busy.contains mark then
          modify fun st ↦ { st with busy := st.busy.insert mark }
          visit (depth - 1) c'
      else if !e.isFree then
        let mark := { c' with outside := 0 }
        if !(← get).busy.contains mark then
          modify fun st ↦ { st with busy := st.busy.insert mark }
          visit depth c'
      else
        let depth := match e with
          | .call .. => if depth ≥ 0 then depth + 1 else depth
          | _ => depth
        visit depth c'

/-- Follow free edges from a config and collect every place at which a token is read or the input
can end. `depth` counts the rules entered since the start; levels count only at depth `0`. -/
def explore (o : Outlook) (eofFree collect : Bool) : Nat → Int → Config → StateM Finder Unit
  | 0, _, _ => pure ()
  | fuel + 1, depth, c => do
    let here := o.net.state c.state
    let node := (← get).pile.node c.stack
    if here.role == .ruleStop && !(node.tops.isEmpty) then
      for (back, below) in node.tops do
        explore o eofFree collect fuel (depth - 1)
          { state := back, branch := c.branch, stack := below, level := c.level,
            outside := c.outside }
      if node.hasEmpty then
        if o.full then add o { c with stack := Stacks.bottom }
        else leaveBy o eofFree (explore o eofFree collect fuel) collect depth c here
    else if here.role == .ruleStop && o.full then add o c
    else leaveBy o eofFree (explore o eofFree collect fuel) collect depth c here

/-- The places from which the branches of the decision at state `s` set out. -/
def start (o : Outlook) (s : Nat) (callers : StackId) (pile : Stacks) : ConfigSet × Stacks :=
  let edges := (o.net.state s).edges
  let run : StateM Finder Unit := do
    for (i, e) in (List.range edges.length).zip edges do
      modify fun st ↦ { st with busy := ∅ }
      o.explore false true depthBound 0 { state := e.target, branch := i + 1, stack := callers }
  let st := (run.run { pile }).2
  (st.found, st.pile)

/-- At the entry of an operator loop: drop the operators that bind too loosely, and what leaving the
loop has in common with entering it. -/
def filterByLevel (o : Outlook) (s : ConfigSet) (pile : Stacks) : ConfigSet × Stacks :=
  let entering := s.items.filter fun c ↦
    c.branch == 1 && (match c.level with | none => true | some l => decide (l ≥ o.level))
  let reached : Std.TreeMap Nat StackId :=
    entering.foldl (fun acc c ↦ acc.insert c.state c.stack) ∅
  let leaving := s.items.filter fun c ↦
    c.branch != 1 && (c.keep || reached[c.state]? != some c.stack)
  let run : StateM Finder Unit := do
    for c in entering do add o { c with level := none }
    for c in leaving do add o c
  let st := (run.run { pile }).2
  (st.found, st.pile)

/-- A place where the rule that is being decided, or with known callers the whole input, ends. -/
def ended (o : Outlook) (c : Config) : Bool := (o.net.state c.state).role == .ruleStop

/-- The places reached by reading a token of kind `k`; none if no branch can read it. -/
def step (o : Outlook) (s : ConfigSet) (k : Kind) (pile : Stacks) : Option ConfigSet × Stacks :=
  let stopped := if o.full || k == endOfInput then s.items.filter o.ended else #[]
  let move : StateM Finder Unit := do
    for c in s.items do
      if !o.ended c then
        for e in (o.net.state c.state).edges do
          if e.reads k then add o { c with state := e.target }
  let st := (move.run { pile }).2
  let moved := st.found
  let settled := stopped.isEmpty && k != endOfInput && moved.onlyBranch.isSome
  let (reach, pile) :=
    if settled then (moved, st.pile)
    else
      let run : StateM Finder Unit := do
        for c in moved.items do
          o.explore (k == endOfInput) false depthBound 0 c
      let st := (run.run { pile := st.pile }).2
      (st.found, st.pile)
  let (reach, pile) :=
    if k == endOfInput && !reach.items.toList.all o.ended then
      let run : StateM Finder Unit := do
        for c in reach.items do
          if o.ended c then add o c
      let st := (run.run { pile }).2
      (st.found, st.pile)
    else (reach, pile)
  let (reach, pile) :=
    if !stopped.isEmpty && (!o.full || !reach.items.toList.any o.ended) then
      let run : StateM Finder Unit := do
        for c in stopped do add o c
      let st := (run.run { pile, found := reach }).2
      (st.found, st.pile)
    else (reach, pile)
  (if reach.items.isEmpty then none else some reach, pile)

end Outlook

/-- What a set of configs says about a decision. -/
inductive Verdict where
  /-- More tokens are needed. -/
  | open
  /-- No branch can read the tokens. -/
  | dead
  /-- One branch is left. -/
  | branch (b : Nat)
  /-- Branches that are taken if their level allows it. -/
  | levels (bs : List (Nat × Option Nat))
  /-- Several branches meet; the callers have to be known. -/
  | conflict (bs : Option (List (Nat × Option Nat)))
  deriving Inhabited

namespace ConfigSet

/-- For each of the given branches, the loosest level on any of its configs; no level at all if some
config has none. -/
def levelsOf (s : ConfigSet) (bs : List Nat) : Option (List (Nat × Option Nat)) :=
  let pairs := bs.map fun b ↦
    let levels := (s.items.filter (·.branch == b)).toList.map (·.level)
    (b, if levels.any Option.isNone then none else (levels.filterMap id).max?)
  if pairs.any (·.2.isSome) then some pairs else none

/-- Several branches can no longer be told apart without knowing the callers. -/
def conflicting (s : ConfigSet) (o : Outlook) : Bool :=
  s.items.toList.all o.ended
    || (s.meetings.any (fun m ↦ m.toList.length > 1)
        && !s.byState.any (fun m ↦ m.toList.length == 1))

/-- The verdict of a set of configs found without known callers. -/
def verdict (s : ConfigSet) (o : Outlook) : Verdict :=
  let leveled := s.items.toList.any (·.level.isSome)
  match s.onlyBranch with
  | some b =>
    if leveled then
      match s.levelsOf [b] with
      | some bs => .levels bs
      | none => .branch b
    else .branch b
  | none =>
    if s.conflicting o then
      .conflict (if leveled then s.levelsOf s.branches else none)
    else .open

/-- The earliest branch that has already read everything its rule asks for. -/
def finished (s : ConfigSet) (o : Outlook) (pile : Stacks) : Option Nat :=
  let done := fun (c : Config) ↦
    c.outside > 0 || (o.ended c && (pile.node c.stack).hasEmpty)
  let allowed := fun (c : Config) ↦
    match c.level with
    | none => true
    | some l => decide (l ≥ o.level)
  let pick := fun (cs : Array Config) ↦ ((cs.filter done).map (·.branch)).toList.min?
  match pick (s.items.filter allowed) with
  | some b => some b
  | none => pick (s.items.filter fun c ↦ !allowed c)

/-- With known callers: the branch that all meetings agree on. -/
def agreed (s : ConfigSet) : Option Nat :=
  let firsts := (s.meetings.filterMap fun m ↦ m.toList.head?).eraseDups
  match firsts with
  | [b] => some b
  | _ => none

end ConfigSet

/-! ## Remembered steps -/

/-- A set of configs found without known callers, with its verdict. -/
structure Insight where
  configs : ConfigSet
  verdict : Verdict
  deriving Inhabited

/-- What is remembered between predictions: insights by the tokens that led to them. -/
structure Reader where
  pile : Stacks := .initial
  insights : Array Insight := #[]
  /-- The insight at the start of a decision, by state and binding level. -/
  starts : Std.TreeMap (List Nat) Nat := ∅
  /-- The insight after another, by its number and the kind of the token read. -/
  nexts : Std.TreeMap (List Nat) Nat := ∅
  deriving Inhabited

namespace Reader

/-- Forget unions that belong to another reading of the empty stack. -/
private def reset (r : Reader) : Reader := { r with pile := r.pile.forgetUnions }

private def remember (r : Reader) (i : Insight) : Nat × Reader :=
  (r.insights.size, { r with insights := r.insights.push i })

/-- The insight before any token is read. -/
def begin (r : Reader) (o : Outlook) (s : Nat) : Nat × Reader :=
  let key := [s, if o.loopRule.isSome then o.level + 1 else 0]
  match r.starts[key]? with
  | some i => (i, r)
  | none =>
    let (configs, pile) := o.start s Stacks.bottom r.pile
    let (configs, pile) :=
      if o.loopRule.isSome then o.filterByLevel configs pile else (configs, pile)
    let (i, r) := { r with pile }.remember ⟨configs, .open⟩
    (i, { r with starts := r.starts.insert key i })

/-- The insight after one more token. -/
def next (r : Reader) (o : Outlook) (i : Nat) (k : Kind) : Nat × Reader :=
  match r.nexts[[i, k]]? with
  | some j => (j, r)
  | none =>
    let here := r.insights.getD i default
    let (reach, pile) := o.step here.configs k r.pile
    let r := { r with pile }
    let (j, r) := match reach with
      | none => r.remember ⟨{}, .dead⟩
      | some configs => r.remember ⟨configs, configs.verdict o⟩
    (j, { r with nexts := r.nexts.insert [i, k] j })

end Reader

/-- The outcome of a prediction. -/
inductive Outcome where
  | chosen (branch : Nat)
  /-- No branch fits; the tokens from the start up to `place` show it. -/
  | failed (place : Nat)
  deriving Inhabited

/-- A stream of kinds, as seen from the start of a prediction. Beyond the end of the input it
repeats the last kind. -/
structure Upcoming where
  kinds : Array Kind
  cursor : Nat

namespace Upcoming

def kind (u : Upcoming) (i : Nat) : Kind := u.kinds.getD i endOfInput

/-- The place after `i`; the end of the input is never passed. -/
def after (u : Upcoming) (i : Nat) : Nat := if u.kind i == endOfInput then i else i + 1

end Upcoming

namespace Outlook

/-- The branches whose level allows them. -/
def allowed (o : Outlook) (bs : List (Nat × Option Nat)) : List Nat :=
  bs.filterMap fun (b, level) ↦
    match level with
    | none => some b
    | some l => if l ≥ o.level then some b else none

/-- Decide with known callers. The result comes with the last place looked at. -/
def readFull (o : Outlook) (u : Upcoming) :
    Nat → ConfigSet → Nat → Stacks → Outcome × Nat × Stacks
  | 0, _, i, pile => (.failed i, i, pile)
  | fuel + 1, s, i, pile =>
    match o.step s (u.kind i) pile with
    | (none, pile) =>
      match s.finished o pile with
      | some b => (.chosen b, i, pile)
      | none => (.failed i, i, pile)
    | (some reach, pile) =>
      match reach.onlyBranch with
      | some b => (.chosen b, i, pile)
      | none =>
        match reach.agreed with
        | some b => (.chosen b, i, pile)
        | none => readFull o u fuel reach (u.after i) pile

/-- Decide without knowing the callers, and with them if that is not enough. `callers` is the real
stack. -/
def read (o : Outlook) (u : Upcoming) (s : Nat) (callers : List Nat) :
    Nat → Nat → Nat → Reader → Outcome × Nat × Reader
  | 0, _, i, r => (.failed i, i, r)
  | fuel + 1, here, i, r =>
    let (j, r) := r.next o here (u.kind i)
    let insight := r.insights.getD j default
    match insight.verdict with
    | .dead =>
      match (r.insights.getD here default).configs.finished o r.pile with
      | some b => (.chosen b, i, r)
      | none => (.failed i, i, r)
    | .branch b => (.chosen b, i, r)
    | .levels bs =>
      match (o.allowed bs).min? with
      | some b => (.chosen b, i, r)
      | none => (.failed u.cursor, i, r)
    | .conflict bs =>
      match (bs.map o.allowed).bind fun
        | [b] => some b
        | _ => none with
      | some b => (.chosen b, i, r)
      | none =>
        let full := { o with full := true }
        let (top, pile) := (callers.reverse.foldlM (fun below back ↦ Stacks.push back below)
          Stacks.bottom).run r.pile.forgetUnions
        let (configs, pile) := full.start s top pile
        let (outcome, j, pile) := full.readFull u fuel configs u.cursor pile
        (outcome, max i j, { r with pile := pile.forgetUnions })
    | .open => read o u s callers fuel j (u.after i) r

/-- Predict the branch to take at decision state `s`. The result comes with the last place that was
looked at. -/
def predict (o : Outlook) (u : Upcoming) (s : Nat) (callers : List Nat) (r : Reader) :
    Outcome × Nat × Reader :=
  let (here, r) := r.begin o s
  o.read u s callers (2 * u.kinds.size + 16) here u.cursor r

end Outlook

end QuantumRisk.Grammar

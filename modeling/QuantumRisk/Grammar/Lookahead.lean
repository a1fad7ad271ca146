import QuantumRisk.Grammar.Network
import Std.Data.TreeSet

/-!
# Lookahead

Which tokens can come next at a state? `Network.expect` answers within the state's own rule: the
kinds that can be read, and whether the end of the rule can be reached without reading anything.
`Network.branchLooks` answers for the branches of a decision, this time looking past the end of the
rule into every caller. A decision whose branches have disjoint answers is settled by one token;
`Network.decisions` lists the answers of exactly those decisions.

The search keeps the calls it is inside of, so that it enters no rule twice on one way down, and the
pairs of state and pending returns it has already seen.
-/

namespace QuantumRisk.Grammar

/-- What can follow a state. -/
structure Look where
  /-- The kinds that can be read next. -/
  kinds : KindSet := .empty
  /-- The end of the rule can be reached first. -/
  ends : Bool := false
  /-- Some way was blocked by a binding level. -/
  blocked : Bool := false
  deriving Inhabited, DecidableEq

namespace Look

def union (a b : Look) : Look :=
  { kinds := a.kinds.union b.kinds, ends := a.ends || b.ends, blocked := a.blocked || b.blocked }

end Look

namespace Network

/-- Search state: what was seen, and the answer so far. -/
structure Search where
  /-- Pairs of a state and the pending returns behind it. -/
  seen : Std.TreeSet (List Nat) := ∅
  look : Look := {}

/-- Follow the free edges from state `s`. `returns` are the states to continue at when a called rule
ends, `inside` the rules entered on this way. With `outward` the search goes on into the callers and
stops at binding levels; without, it reports the end of the rule and ignores levels. -/
def search (net : Network) (outward : Bool) :
    Nat → Nat → List Nat → KindSet → StateM Search Unit
  | 0, _, _, _ => pure ()
  | fuel + 1, s, returns, inside => do
    if (← get).seen.contains (s :: returns) then return
    modify fun st ↦ { st with seen := st.seen.insert (s :: returns) }
    let here := net.state s
    if here.role == .ruleStop then
      match returns with
      | back :: rest =>
        let inside := ⟨inside.bits &&& (inside.bits ^^^ (1 <<< here.rule))⟩
        search net outward fuel back rest inside
        return
      | [] =>
        if !outward then
          modify fun st ↦ { st with look.ends := true }
          return
    for e in here.edges do
      match e with
      | .call rule _ target follow =>
        if !inside.contains rule then
          search net outward fuel target (follow :: returns) (inside.insert rule)
      | .guarded _ target =>
        if outward then modify fun st ↦ { st with look.blocked := true }
        else search net outward fuel target returns inside
      | .free target | .unwind target _ => search net outward fuel target returns inside
      | .token k _ => modify fun st ↦ { st with look.kinds := st.look.kinds.insert k }
      | .oneOf ks _ => modify fun st ↦ { st with look.kinds := st.look.kinds.union ks }

/-- A bound on the length of a way: no state repeats under the same calls, and no rule is entered
twice. -/
def searchFuel (net : Network) : Nat := 4 * net.states.size + 16

/-- What can follow state `s` within its rule. -/
def expect (net : Network) (s : Nat) : Look :=
  ((net.search false net.searchFuel s [] .empty).run {}).2.look

/-- What can follow each branch of the decision at state `s`, in any calling context. -/
def branchLooks (net : Network) (s : Nat) : List Look :=
  (net.state s).edges.map fun e ↦
    ((net.search true net.searchFuel e.target [] .empty).run {}).2.look

/-- Can one token decide between the branches? -/
def separable (looks : List Look) : Bool :=
  let step := fun (acc : Option KindSet) (l : Look) ↦ acc.bind fun seen ↦
    if l.blocked || l.kinds.isEmpty || !seen.disjoint l.kinds then none
    else some (seen.union l.kinds)
  (looks.foldl step (some .empty)).isSome

/-- Is state `st` one at which a branch is chosen? -/
def isDecision (st : NetState) : Bool :=
  match st.role with
  | .blockStart | .starBlockStart | .plusBlockStart => st.edges.length > 1
  | .starEntry | .plusBack => true
  | _ => false

/-- For each state, the kinds that select each branch when one token decides. -/
def decisions (net : Network) : Std.TreeMap Nat (Option (List KindSet)) :=
  net.states.map fun s st ↦
    if isDecision st then
      let looks := net.branchLooks s
      if separable looks then some (looks.map (·.kinds)) else none
    else none

/-- For each state, what can follow within its rule. -/
def expectations (net : Network) : Std.TreeMap Nat Look := net.states.map fun s _ ↦ net.expect s

end Network

end QuantumRisk.Grammar

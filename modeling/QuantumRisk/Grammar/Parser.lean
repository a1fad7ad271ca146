import QuantumRisk.Diagnostic
import QuantumRisk.Grammar.Tree
import QuantumRisk.Grammar.Prediction

/-!
# Parsing with recovery

The parser interprets the steps of a network and never gives up on a syntax error: it reports the
error, repairs or skips a few tokens, and goes on.

* A token that is not expected is dropped if the next one fits, and a missing token is made up if
  the current one fits behind it.
* Before each choice the parser checks that the current token can come next. Inside a loop it skips
  to something that can.
* If nothing helps, the rule ends where it is, after skipping to a token that some caller is
  waiting for.

After an error nothing is reported until a token has been read in the normal way. Skipping inside a
loop makes the loop expect, from then on, everything its callers wait for as well; this is why later
messages about the same loop list more tokens than the first.

Words that the lexer could not read are reported in the order in which the parser came across them,
so `Input` keeps them beside the tokens.
-/

namespace QuantumRisk.Grammar

/-- How kinds are written in messages. -/
structure Vocabulary where
  /-- The name of a kind, in the order of kinds. -/
  names : Array String
  /-- The text of a token that was made up. -/
  madeUp : Array String
  deriving Inhabited

namespace Vocabulary

def name (v : Vocabulary) (k : Kind) : String := v.names.getD k "<UNKNOWN>"

/-- A set of kinds as messages show it; braces only around more than one. -/
def showSet (v : Vocabulary) (s : KindSet) : String :=
  match s.toList with
  | [] => "\x7b\x7d"
  | [k] => v.name k
  | ks => "\x7b" ++ ", ".intercalate (ks.map v.name) ++ "\x7d"

end Vocabulary

/-- The words of a text. -/
structure Input where
  /-- All words, comments included; the last is the end of the input. -/
  words : Array Token
  /-- The words that count, comments excluded. -/
  tokens : Array Token
  /-- What could not be read, with the place in `tokens` of the next word. -/
  faults : List (Nat × Diagnostic)
  /-- The kinds of the words that count. -/
  kinds : Array Kind := tokens.map (·.kind)
  deriving Inhabited

/-- A network with everything that is known about it in advance. -/
structure Tables where
  net : Network
  vocabulary : Vocabulary
  expectations : Std.TreeMap Nat Look
  decisions : Std.TreeMap Nat (Option (List KindSet))
  deriving Inhabited

/-- A rule that is being read. -/
structure Frame where
  rule : Nat
  /-- The state of the call; missing for the rule the parse started with. -/
  caller : Option Nat
  start : Token
  /-- The nodes read so far, last first. -/
  children : List Tree := []
  deriving Inhabited

/-- Why a rule cannot go on. -/
inductive Fault where
  | mismatch
  | noBranch (start offending : Token)
  | tooLoose (level : Nat)
  /-- The bound on the number of steps was reached. -/
  | exhausted
  deriving Inhabited

structure ParserState where
  input : Input
  cursor : Nat := 0
  /-- Faults of the lexer that have not been reported yet. -/
  unread : List (Nat × Diagnostic)
  /-- Reported so far, last first. -/
  reported : List Diagnostic := []
  frames : List Frame := []
  state : Nat := 0
  recovering : Bool := false
  lastError : Option Nat := none
  lastErrorStates : List Nat := []
  /-- What is expected at each state; skipping in a loop adds to it. -/
  expectations : Std.TreeMap Nat Look
  levels : List Nat := []
  reader : Reader := {}
  exhausted : Bool := false
  deriving Inhabited

/-- A computation that always goes on. -/
abbrev Parser := StateM ParserState

/-- A computation that may end the rule it is part of. -/
abbrev Attempt := ExceptT Fault Parser

namespace Parser

/-! ## Looking at tokens -/

/-- Report what the lexer could not read in front of token `i`. -/
def discover (i : Nat) : Parser Unit :=
  modify fun st ↦
    let (found, rest) := st.unread.span fun (j, _) ↦ decide (j ≤ i)
    if found.isEmpty then st
    else { st with unread := rest, reported := (found.map (·.2)).reverse ++ st.reported }

def tokenAt (i : Nat) : Parser Token := do
  let st ← get
  return st.input.tokens.getD (min i (st.input.tokens.size - 1)) default

def current : Parser Token := do tokenAt (← get).cursor

/-- The token after the current one. -/
def upcoming : Parser Token := do
  let st ← get
  let t ← current
  if t.kind == endOfInput then return t
  discover (st.cursor + 1)
  tokenAt (st.cursor + 1)

/-- The token before the current one, if any was read. -/
def previous : Parser (Option Token) := do
  let st ← get
  if st.cursor == 0 then return none else return st.input.tokens[st.cursor - 1]?

def attach (t : Tree) : Parser Unit :=
  modify fun st ↦
    match st.frames with
    | f :: fs => { st with frames := { f with children := t :: f.children } :: fs }
    | [] => st

/-- Take the current token into the tree; the end of the input is never passed. -/
def consume : Parser Unit := do
  let t ← current
  if t.kind != endOfInput then
    let next := (← get).cursor + 1
    discover next
    modify fun st ↦ { st with cursor := next }
  attach (.leaf t)

/-! ## Expectations -/

def lookAt (s : Nat) : Parser Look := do
  return (← get).expectations.getD s default

/-- The states at which the callers go on, innermost first. -/
def callers (net : Network) (frames : List Frame) : List Nat :=
  frames.filterMap fun f ↦ f.caller.map net.followOf

/-- Everything that can be read at state `s`, looking through the ends of rules. -/
def expected (tables : Tables) (s : Nat) : Parser KindSet := do
  let st ← get
  return go st.expectations (← lookAt s) (callers tables.net st.frames)
where
  go (expectations : Std.TreeMap Nat Look) (look : Look) : List Nat → KindSet
    | [] => if look.ends then look.kinds.insert endOfInput else look.kinds
    | back :: rest =>
      if look.ends then
        look.kinds.union (go expectations (expectations.getD back default) rest)
      else look.kinds

/-- What can be read at state `s` according to the network alone. -/
def reachable (tables : Tables) (s : Nat) : Parser KindSet := do
  let st ← get
  return expected.go tables.expectations (tables.expectations.getD s default)
    (callers tables.net st.frames)

/-- Everything that some caller waits for. -/
def awaited (tables : Tables) : Parser KindSet := do
  let st ← get
  return (callers tables.net st.frames).foldl (fun acc s ↦
    acc.union (st.expectations.getD s default).kinds) .empty

/-! ## Reporting -/

def escape (s : String) : String :=
  "'" ++ ((s.replace "\n" "\\n").replace "\r" "\\r").replace "\t" "\\t" ++ "'"

def report (t : Token) (message : String) : Parser Unit :=
  modify fun st ↦
    { st with reported := { line := t.line, column := t.column, message } :: st.reported }

/-- Start an error, unless one is already being recovered from. -/
def unlessRecovering (act : Parser Unit) : Parser Unit := do
  if !(← get).recovering then
    modify fun st ↦ { st with recovering := true }
    act

/-- A token was read in the normal way: the error, if any, is over. -/
def recovered : Parser Unit :=
  modify fun st ↦ { st with recovering := false, lastError := none, lastErrorStates := [] }

def reportUnwanted (tables : Tables) : Parser Unit := unlessRecovering do
  let t ← current
  let set ← expected tables (← get).state
  report t ("extraneous input " ++ escape t.text ++ " expecting " ++ tables.vocabulary.showSet set)

def reportMissing (tables : Tables) : Parser Unit := unlessRecovering do
  let t ← current
  let set ← expected tables (← get).state
  report t ("missing " ++ tables.vocabulary.showSet set ++ " at " ++ escape t.text)

/-- The words from one token to another, without the blanks between them. -/
def wordsBetween (words : Array Token) (a b : Token) : String :=
  String.join (((words.extract a.place (b.place + 1)).toList.takeWhile
    (·.kind != endOfInput)).map (·.text))

def reportFault (tables : Tables) : Fault → Parser Unit
  | .mismatch => unlessRecovering do
    let t ← current
    let set ← expected tables (← get).state
    report t ("mismatched input " ++ escape t.text ++ " expecting "
      ++ tables.vocabulary.showSet set)
  | .noBranch start offending => unlessRecovering do
    let text ←
      if start.kind == endOfInput then pure "<EOF>"
      else do
        let st ← get
        discover st.input.tokens.size
        pure (wordsBetween st.input.words start offending)
    report offending ("no viable alternative at input " ++ escape text)
  | .tooLoose level => unlessRecovering do
    let t ← current
    report t ("operator of level " ++ toString level ++ " binds too loosely")
  | .exhausted => modify fun st ↦ { st with exhausted := true }

/-! ## Repair -/

/-- Skip tokens until one of `set`, or the end of the input. -/
def skipTo (set : KindSet) : Parser Unit := do
  let st ← get
  go (st.input.tokens.size - st.cursor)
where
  go : Nat → Parser Unit
    | 0 => pure ()
    | n + 1 => do
      let t ← current
      if t.kind == endOfInput || set.contains t.kind then return
      consume
      go n

/-- Drop the current token if the next one fits. -/
def dropUnwanted (tables : Tables) : Parser Bool := do
  let next ← upcoming
  let set ← expected tables (← get).state
  if set.contains next.kind then
    reportUnwanted tables
    consume
    recovered
    return true
  else return false

/-- Does the current token fit behind the one that is missing? -/
def fitsBehind (tables : Tables) : Parser Bool := do
  let st ← get
  let t ← current
  match (tables.net.state st.state).edges.head? with
  | some e => return (← reachable tables e.target).contains t.kind
  | none => return false

/-- Repair a mismatch on the spot. With `leaf`, a token that was made up enters the tree. -/
def repair (tables : Tables) (leaf : Bool) : Attempt Unit := do
  if ← dropUnwanted tables then consume
  else if ← fitsBehind tables then
    reportMissing tables
    if leaf then
      let st ← get
      let t ← current
      let set ← expected tables st.state
      let kind := set.toList.headD endOfInput
      let before ← previous
      let near := if t.kind == endOfInput then before.getD t else t
      attach (.leaf { kind, text := tables.vocabulary.madeUp.getD kind "", line := near.line,
                      column := near.column })
  else throw .mismatch

/-- Check that the current token can come next, and repair what can be repaired. -/
def sync (tables : Tables) : Attempt Unit := do
  let st ← get
  if st.recovering then return
  let look ← lookAt st.state
  let t ← current
  if look.kinds.contains t.kind || look.ends then return
  match (tables.net.state st.state).role with
  | .blockStart | .starBlockStart | .plusBlockStart | .starEntry =>
    if ← dropUnwanted tables then return
    throw .mismatch
  | .plusBack | .starBack =>
    reportUnwanted tables
    let set := look.kinds.union (← awaited tables)
    modify fun st ↦
      { st with expectations := st.expectations.insert st.state { look with kinds := set } }
    skipTo set
  | _ => return

/-- End a rule that cannot go on: skip to something a caller waits for. A second error at the same
token and state skips one token more, so that recovery always makes progress. -/
def abandon (tables : Tables) : Parser Unit := do
  let st ← get
  if st.lastError == some st.cursor && st.lastErrorStates.contains st.state then consume
  modify fun st ↦ { st with lastError := some st.cursor,
                            lastErrorStates := st.state :: st.lastErrorStates }
  skipTo (← awaited tables)

/-! ## Interpreting steps -/

def moveTo (s : Nat) : Parser Unit := modify fun st ↦ { st with state := s }

/-- Predict the branch of the decision at state `s`. -/
def predict (tables : Tables) (s : Nat) : Attempt Nat := do
  let st ← get
  let here := tables.net.state s
  let outlook : Outlook :=
    { net := tables.net, full := false, level := st.levels.headD 0,
      loopRule := if here.operatorLoop then some here.rule else none }
  let upcoming : Upcoming := { kinds := st.input.kinds, cursor := st.cursor }
  let (outcome, last, reader) :=
    outlook.predict upcoming s (callers tables.net st.frames) st.reader
  modify fun st ↦ { st with reader }
  discover last
  match outcome with
  | .chosen b => return b
  | .failed i => throw (.noBranch (← current) (← tokenAt i))

/-- Choose a branch at state `s`, counting from `1`; `0` if none fits. -/
def choose (tables : Tables) (s : Nat) : Attempt Nat := do
  match tables.decisions.getD s none with
  | some looks =>
    let t ← current
    return match looks.findIdx? (·.contains t.kind) with
      | some i => i + 1
      | none => 0
  | none => predict tables s

/-- Close the innermost frame into a node. -/
def finish (f : Frame) : Parser Tree := do
  return .node f.rule f.start (← previous) f.children.reverse

/-- What was read so far becomes the first part of a new node. -/
def extend : Parser Unit := do
  match (← get).frames with
  | f :: fs =>
    let node ← finish f
    modify fun st ↦ { st with frames := { f with children := [node] } :: fs }
  | [] => pure ()

/-- Begin a rule that was called at state `caller`. -/
def enter (procedure : Procedure) (caller : Option Nat) (rule level : Nat) : Parser Unit := do
  let start ← current
  modify fun st ↦
    { st with
      state := procedure.start
      frames := { rule, caller, start } :: st.frames
      levels := if procedure.climbed then level :: st.levels else st.levels }

/-- End a rule: its node goes to the rule that called it, or stays alone if there is none. -/
def leave (procedure : Procedure) (caller : Option Nat) : Parser Unit := do
  match (← get).frames with
  | f :: fs =>
    let node ← finish f
    modify fun st ↦
      { st with
        frames := fs
        levels := if procedure.climbed then st.levels.tail else st.levels
        state := if procedure.climbed then st.state else caller.getD st.state }
    if fs.isEmpty then modify fun st ↦ { st with frames := [{ f with children := [node] }] }
    else attach node
  | [] => pure ()

mutual

def runSteps (tables : Tables) : Nat → List Step → Attempt Unit
  | _, [] => pure ()
  | 0, _ => throw .exhausted
  | fuel + 1, step :: rest => do
    runStep tables fuel step
    runSteps tables fuel rest

def runStep (tables : Tables) : Nat → Step → Attempt Unit
  | 0, _ => throw .exhausted
  | fuel + 1, step => do
    match step with
    | .token s kind =>
      moveTo s
      if (← current).kind == kind then
        recovered
        consume
      else repair tables true
    | .oneOf s kinds =>
      moveTo s
      if kinds.contains (← current).kind then
        recovered
        consume
      else repair tables false
    | .call s rule level =>
      moveTo s
      runRule tables fuel (some s) rule level
      if (← get).exhausted then throw .exhausted
    | .extend s level =>
      extend
      moveTo s
      if level < (← get).levels.headD 0 then throw (.tooLoose level)
    | .choice s branches =>
      moveTo s
      sync tables
      let b ← choose tables s
      if b == 0 then
        let t ← current
        throw (.noBranch t t)
      runSteps tables fuel (branches.getD (b - 1) [])
    | .optional s branches =>
      moveTo s
      sync tables
      let b ← choose tables s
      if b != 0 then runSteps tables fuel (branches.getD (b - 1) [])
    | .star entry back body =>
      moveTo entry
      sync tables
      runLoop tables fuel entry back body
    | .plus start back body =>
      moveTo start
      sync tables
      runSteps tables fuel body
      moveTo back
      sync tables
      runLoop tables fuel back back body

/-- Go around a loop: `decision` says whether once more, and `back` is passed after each round. -/
def runLoop (tables : Tables) : Nat → Nat → Nat → List Step → Attempt Unit
  | 0, _, _, _ => throw .exhausted
  | fuel + 1, decision, back, body => do
    if (← choose tables decision) == 1 then
      runSteps tables fuel body
      moveTo back
      sync tables
      runLoop tables fuel decision back body

def runRule (tables : Tables) : Nat → Option Nat → Nat → Nat → Parser Unit
  | 0, _, _, _ => modify fun st ↦ { st with exhausted := true }
  | fuel + 1, caller, rule, level => do
    let procedure := tables.net.procedure rule
    enter procedure caller rule level
    match ← (runSteps tables fuel procedure.steps).run with
    | .ok () => pure ()
    | .error fault =>
      reportFault tables fault
      abandon tables
    leave procedure caller

end

end Parser

/-- The result of a parse: the tree and what was reported, in order. Without a tree the bound on the
number of steps was reached. -/
structure Parse where
  tree : Option Tree
  diagnostics : List Diagnostic
  deriving Inhabited

namespace Tables

def ofLanguage (l : Language) (vocabulary : Vocabulary) : Tables :=
  let net := Network.ofLanguage l
  { net, vocabulary, expectations := net.expectations, decisions := net.decisions }

/-- Parse a text from rule `rule`. Each token is looked at by a bounded number of nested rules,
which gives the bound on the number of steps. -/
def parse (tables : Tables) (rule : Nat) (input : Input) : Parse :=
  let fuel := 400 * (input.tokens.size + 10)
  let run : Parser Unit := do
    Parser.discover 0
    Parser.runRule tables fuel none rule 0
  let st := (run.run { input, unread := input.faults, expectations := tables.expectations }).2
  let tree := match st.frames with
    | f :: _ => f.children.head?
    | [] => none
  { tree := if st.exhausted then none else tree, diagnostics := st.reported.reverse }

end Tables

end QuantumRisk.Grammar

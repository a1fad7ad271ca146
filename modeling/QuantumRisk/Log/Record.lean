import QuantumRisk.Json.Printer
import QuantumRisk.Log.Time
import QuantumRisk.Text.Percent

/-!
# Log records

A record is a message with the name of its logger, its level, the place in the program, and context
such as the contract. It is written in one of two forms: as one line of JSON for machines, or in
colour for people. There is no line if the values do not fit the message, or if something is beyond
the limits of what can be written.
-/

namespace QuantumRisk.Log

open Text (PercentArgs PercentFault)

/-- An error that a record reports. -/
structure Trouble where
  kind : String
  message : String
  /-- What is told of the error at length: where it was raised, and why. -/
  account : String
  /-- Whether the error says of itself that it is something; if not, it is not told. -/
  counts : Bool := true

/-- The last line of the account of an error. -/
def lastLine (kind message : String) : String :=
  if message == "" then kind else kind ++ ": " ++ message

/-- An error that was not raised anywhere: there is no more to tell than the last line. -/
def Trouble.unraised (kind message : String) : Trouble :=
  { kind, message, account := lastLine kind message }

structure Record where
  logger : String
  level : Int
  message : String
  args : List Json := []
  /-- The file that the record comes from; empty if unknown. -/
  path : String := ""
  function : Option String := none
  line : Int := 0
  extra : List (String × Json) := []
  trouble : Option Trouble := none

namespace Record

/-- The values for the message: a single record that is not empty stands for its members. -/
def percentArgs (r : Record) : PercentArgs :=
  match r.args with
  | [.obj (m :: ms)] => .record (m :: ms)
  | args => .list args

/-- The message with its values filled in; without values it stays as it is. -/
def text (r : Record) (limits : Limits := .standard) : Except PercentFault String :=
  if r.args.isEmpty then .ok r.message else Text.fillPercent r.message r.percentArgs limits

/-- The error that is told, if any. -/
def toldTrouble (r : Record) : Option Trouble := r.trouble.filter (·.counts)

/-- The name of a level. -/
def levelName (level : Int) : String :=
  match level with
  | 0 => "NOTSET"
  | 10 => "DEBUG"
  | 20 => "INFO"
  | 30 => "WARNING"
  | 40 => "ERROR"
  | 50 => "CRITICAL"
  | n => "Level " ++ toString n

/-- The name of a file without its extension; leading dots do not begin one. -/
def stem (name : String) : String :=
  let cs := name.toList
  let dots := cs.takeWhile (· == '.')
  let rest := cs.drop dots.length
  let tail := rest.reverse.dropWhile (· != '.')
  match tail with
  | [] => name
  | _ :: front => String.ofList (dots ++ front.reverse)

/-- The module that a record comes from: the stem of the last component of its path. -/
def moduleName (r : Record) : String :=
  stem (String.ofList (r.path.toList.reverse.takeWhile (· != '/')).reverse)

end Record

/-- The context that records may carry, in the order in which it is written. -/
def contextKeys : List String :=
  ["contract", "report_path", "finding_kind", "error_code", "duration_ms"]

/-- The members of a JSON line. -/
def jsonMembers (ns : Int) (r : Record) (message : String) : List (String × Json) :=
  let place := if r.path == "" then [] else
    [("module", .str r.moduleName),
      ("function", match r.function with
        | some f => .str f
        | none => .null),
      ("line", .int r.line)]
  let trouble := match r.toldTrouble with
    | some t => [("exception", Json.obj [("type", .str t.kind), ("message", .str t.message),
        ("traceback", .str t.account)])]
    | none => []
  let context := contextKeys.filterMap fun k ↦ (Json.lookup k r.extra).map (k, ·)
  [("timestamp", .str (Moment.ofNanos ns).isoText), ("level", .str (Record.levelName r.level)),
    ("logger", .str r.logger), ("message", .str message)] ++ place ++ trouble ++ context

/-- Why a record has no line. -/
inductive LineFault where
  | message (fault : PercentFault)
  | overrun (o : Overrun)
  deriving DecidableEq, Inhabited

def LineFault.text : LineFault → String
  | .message fault => fault.message
  | .overrun (.digits limit) => Text.tooManyDigits limit
  | .overrun .nesting => "maximum recursion depth exceeded while encoding a JSON object"

/-- A record as one line of JSON, in which the values may stand in as many others as the limits
say. -/
def jsonLine (ns : Int) (r : Record) (limits : Limits := .standard) : Except LineFault String :=
  match r.text limits with
  | .error fault => .error (.message fault)
  | .ok message =>
    let members := jsonMembers ns r message
    match Json.overrunMembers limits.digits limits.nesting members with
    | some o => .error (.overrun o)
    | none => .ok ((Json.obj members).render .log)

/-- The colour of a level; unknown levels have none. -/
def levelColour : String → String
  | "DEBUG" => "\x1b[36m"
  | "INFO" => "\x1b[32m"
  | "WARNING" => "\x1b[33m"
  | "ERROR" => "\x1b[31m"
  | "CRITICAL" => "\x1b[35m"
  | _ => ""

/-- A record in colour. -/
def colourLine (ns : Int) (r : Record) (limits : Limits := .standard) :
    Except PercentFault String := do
  let level := Record.levelName r.level
  let shown := String.ofList (List.replicate (8 - level.length) ' ') ++ level
  let message ← r.text limits
  let message ← match Json.lookup "contract" r.extra with
    | some c =>
      if c.isSome then
        match c.overrun limits.digits limits.nesting with
        | some o => .error (.overrun o)
        | none => .ok ("[" ++ c.display ++ "] " ++ message)
      else .ok message
    | none => .ok message
  let trouble := match r.toldTrouble with
    | some t => "\n" ++ t.account
    | none => ""
  return levelColour level ++ (Moment.ofNanos ns).clockText ++ " [" ++ shown ++ "]\x1b[0m "
    ++ r.logger ++ ": " ++ message ++ trouble

end QuantumRisk.Log

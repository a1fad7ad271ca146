import QuantumRisk.Log.Record
import QuantumRisk.Text.Case

/-!
# Choosing what is logged

Records below a level are dropped. The level is given by name, in any case; a name that is not known
stands for the usual level. Production and staging log JSON, everything else logs in colour.
-/

namespace QuantumRisk.Log

inductive Format where
  | json
  | colour
  deriving DecidableEq, Inhabited, Repr

/-- A name that stands for something other than a level. -/
inductive SetupFault where
  | notALevel (value : String)
  deriving DecidableEq, Inhabited

def SetupFault.message : SetupFault → String
  | .notALevel value => "Unknown level: " ++ Text.quoted value

/-- What is logged, and how. -/
structure Setup where
  level : Int
  format : Format
  deriving DecidableEq, Inhabited

/-- The level of a name. One name stands for a text. -/
def levelOf (name : String) : Except SetupFault Int :=
  match Text.upper name with
  | "CRITICAL" => .ok 50
  | "FATAL" => .ok 50
  | "ERROR" => .ok 40
  | "WARNING" => .ok 30
  | "WARN" => .ok 30
  | "INFO" => .ok 20
  | "DEBUG" => .ok 10
  | "NOTSET" => .ok 0
  | "BASIC_FORMAT" => .error (.notALevel "%(levelname)s:%(name)s:%(message)s")
  | _ => .ok 20

/-- Libraries that log too much, and the level they are kept to. -/
def quietLoggers : List (String × Int) :=
  [("uvicorn.access", 30), ("httpcore", 30), ("httpx", 30), ("asyncio", 30)]

/-- What is logged in an environment at a level. -/
def setup (environment levelName : String) : Except SetupFault Setup := do
  let level ← levelOf levelName
  let format := if environment == "staging" || environment == "production" then .json else .colour
  return ⟨level, format⟩

/-- The line of a record, if it is not dropped. -/
def Setup.line (s : Setup) (ns : Int) (r : Record) : Except LineFault (Option String) :=
  if r.level < s.level then .ok none
  else
    match s.format with
    | .json => some <$> jsonLine ns r
    | .colour => some <$> (colourLine ns r).mapError .message

end QuantumRisk.Log

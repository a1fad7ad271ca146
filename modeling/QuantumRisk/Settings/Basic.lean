import QuantumRisk.Risk
import QuantumRisk.Settings.Dotenv
import QuantumRisk.Text.Case

/-!
# Settings

Each setting comes from the first source that has it: the caller, the environment, the settings
file, and at last its default. In the environment and in the file, names carry a common prefix and
are compared without regard to case. Callers and the settings file may not name what is not a
setting; the environment may.
-/

namespace QuantumRisk

open Validation (Complaint Issue Rejection)

structure Settings where
  appName : String := "pqscan"
  appEnv : String := "development"
  debug : Bool := false
  logLevel : String := "INFO"
  reportDir : String := "report-output"
  reportSuffix : String := "-analysis.json"
  ecrecoverWeight : Int := 50
  keyExposureWeight : Int := 10
  riskScoreCeiling : Int := 100
  byteTypes : String := "bytes32,bytes"
  apiHost : String := "127.0.0.1"
  apiPort : Int := 5000
  contractsRoot : String := "."
  deriving DecidableEq, Inhabited

namespace Settings

def model : String := "Settings"

/-- The prefix of names in the environment, in lower case. -/
def namePrefix : String := "pqscan_"

def environments : List String := ["development", "staging", "production"]

/-- A setting: its name and how a value for it is taken. -/
structure Entry where
  name : String
  apply : Json → Settings → Except Issue Settings

private def textEntry (name : String) (put : String → Settings → Settings) : Entry :=
  ⟨name, fun v s ↦ (Validation.text v).map (put · s)⟩

private def integerEntry (name : String) (put : Int → Settings → Settings) : Entry :=
  ⟨name, fun v s ↦ (Validation.integer v).map (put · s)⟩

/-- All settings in order. -/
def entries : List Entry := [
  textEntry "app_name" fun x s ↦ { s with appName := x },
  ⟨"app_env", fun v s ↦
    (Validation.choice environments v).map fun x ↦ { s with appEnv := x }⟩,
  ⟨"debug", fun v s ↦ (Validation.switch v).map fun x ↦ { s with debug := x }⟩,
  textEntry "log_level" fun x s ↦ { s with logLevel := x },
  textEntry "report_dir" fun x s ↦ { s with reportDir := x },
  textEntry "report_suffix" fun x s ↦ { s with reportSuffix := x },
  integerEntry "ecrecover_weight" fun x s ↦ { s with ecrecoverWeight := x },
  integerEntry "key_exposure_weight" fun x s ↦ { s with keyExposureWeight := x },
  integerEntry "risk_score_ceiling" fun x s ↦ { s with riskScoreCeiling := x },
  textEntry "byte_types" fun x s ↦ { s with byteTypes := x },
  textEntry "api_host" fun x s ↦ { s with apiHost := x },
  integerEntry "api_port" fun x s ↦ { s with apiPort := x },
  textEntry "contracts_root" fun x s ↦ { s with contractsRoot := x }]

/-- The values of all settings, by name. -/
def fields (s : Settings) : List (String × Json) :=
  [("app_name", .str s.appName), ("app_env", .str s.appEnv), ("debug", .bool s.debug),
    ("log_level", .str s.logLevel), ("report_dir", .str s.reportDir),
    ("report_suffix", .str s.reportSuffix), ("ecrecover_weight", .int s.ecrecoverWeight),
    ("key_exposure_weight", .int s.keyExposureWeight),
    ("risk_score_ceiling", .int s.riskScoreCeiling), ("byte_types", .str s.byteTypes),
    ("api_host", .str s.apiHost), ("api_port", .int s.apiPort),
    ("contracts_root", .str s.contractsRoot)]

/-! ## Reading -/

/-- Where settings come from. -/
structure Sources where
  overrides : List (String × Json) := []
  environment : List (String × String) := []
  /-- The text of the settings file. -/
  file : Option String := none

/-- Set a value under a name; a name that is there keeps its place. -/
private def setLower {α : Type} (name : String) (v : α) : List (String × α) → List (String × α)
  | [] => [(name, v)]
  | (k, w) :: rest => if k == name then (k, v) :: rest else (k, w) :: setLower name v rest

/-- Names in lower case; of names that differ in case alone the last counts. -/
def lowerNames {α : Type} (vars : List (String × α)) : List (String × α) :=
  vars.foldl (fun done (k, v) ↦ setLower (Text.lower k) v done) []

namespace Sources

/-- The bindings of the settings file with names in lower case. -/
def fileBindings (src : Sources) : List Binding :=
  match src.file with
  | none => []
  | some text => lowerNames (bindings (fun n ↦ List.lookup n src.environment) text)

/-- The value given for a setting. -/
def find (src : Sources) (name : String) : Option Json :=
  match Json.lookup name src.overrides with
  | some v => some v
  | none =>
    match List.lookup (namePrefix ++ name) (lowerNames src.environment) with
    | some v => some (.str v)
    | none =>
      match List.lookup (namePrefix ++ name) src.fileBindings with
      | some (some v) => some (.str v)
      | _ => none

/-- The names in the settings file and from the caller that are not settings. A name without a value
is not counted, nor is a setting's name without its prefix. -/
def unknownNames (src : Sources) : List String :=
  let known := entries.map (·.name)
  let ofFile := src.fileBindings.filterMap fun (k, v) ↦
    if (v.getD "") == "" || known.contains k || (known.map (namePrefix ++ ·)).contains k then none
    else some k
  let ofCaller := (src.overrides.map (·.1)).filter fun k ↦ !known.contains k
  ofFile ++ ofCaller.filter fun k ↦ !ofFile.contains k

end Sources

/-- Take the values of all settings in order, collecting complaints. -/
private def applyAll (src : Sources) (es : List Entry) (s : Settings) :
    Settings × List Complaint :=
  match es with
  | [] => (s, [])
  | e :: rest =>
    match src.find e.name with
    | none => applyAll src rest s
    | some v =>
      match e.apply v s with
      | .ok s => applyAll src rest s
      | .error issue =>
        let (s, cs) := applyAll src rest s
        (s, ⟨[.member e.name], issue⟩ :: cs)

/-- Read all settings. -/
def read (src : Sources) : Except Rejection Settings :=
  let (s, complaints) := applyAll src entries {}
  let unknown := src.unknownNames.map fun k ↦ (⟨[.member k], .unexpected⟩ : Complaint)
  if complaints.isEmpty && unknown.isEmpty then .ok s
  else .error ⟨model, complaints ++ unknown⟩

/-! ## What follows from settings -/

/-- The weights of the risk policy. -/
def riskWeights (s : Settings) : Except Rejection RiskWeights :=
  RiskWeights.read
    (some (.obj [(FindingKind.ecrecoverUsage.name, .int s.ecrecoverWeight),
      (FindingKind.keyExposure.name, .int s.keyExposureWeight)]))
    (some (.int s.riskScoreCeiling))

/-- The byte types, each once. -/
def byteTypeSet (s : Settings) : List String :=
  ((s.byteTypes.splitToList (· = ',')).map Text.strip |>.filter (· != "")).eraseDups

end Settings

end QuantumRisk

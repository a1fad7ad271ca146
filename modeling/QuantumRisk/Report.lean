import QuantumRisk.Json.Printer
import QuantumRisk.Json.Reader
import QuantumRisk.Risk

/-!
# Reports

A report states, for one contract, how often each pattern was found, the score, and the warnings. It
is kept as a JSON object whose member names are fixed; when one is read, the names of the fields
themselves are accepted in place of the member names.
-/

namespace QuantumRisk

open Validation (Complaint Issue Origin Rejection Step)

structure Report where
  contract : String
  ecrecoverCount : Nat
  keyExposureCount : Nat
  riskScore : Nat
  score_le : riskScore ≤ 100 := by decide
  warnings : List String
  deriving DecidableEq

namespace Report

def model : String := "AnalysisReport"

/-! ## Writing -/

def toJson (r : Report) : Json :=
  .obj [("contract", .str r.contract), ("ecrecoverCount", .int r.ecrecoverCount),
    ("publicKeyExposureCount", .int r.keyExposureCount), ("riskScore", .int r.riskScore),
    ("warnings", .arr (r.warnings.map .str))]

/-- The text of a saved report. -/
def text (r : Report) : String := r.toJson.render .report

/-! ## Reading -/

/-- A field: its member name in saved reports, and its own name. -/
structure Field where
  member : String
  name : String

def contractField : Field := ⟨"contract", "contract"⟩
def ecrecoverField : Field := ⟨"ecrecoverCount", "ecrecover_count"⟩
def keyExposureField : Field := ⟨"publicKeyExposureCount", "public_key_exposure_count"⟩
def scoreField : Field := ⟨"riskScore", "risk_score"⟩
def warningsField : Field := ⟨"warnings", "warnings"⟩

/-- The value of a field and the name under which it was found. -/
def Field.find (f : Field) (members : List (String × Json)) : Option (String × Json) :=
  match Json.lookup f.member members with
  | some v => some (f.member, v)
  | none => (Json.lookup f.name members).map (f.name, ·)

/-- A count, zero if it is not given. -/
def readCount (high : Option Int) (f : Field) (members : List (String × Json)) :
    Except (List Complaint) Nat :=
  match f.find members with
  | none => .ok 0
  | some (key, v) =>
    match Validation.integerWithin (some 0) high v with
    | .ok n => .ok n.toNat
    | .error issue => .error [⟨[.member key], issue⟩]

def readContract (members : List (String × Json)) : Except (List Complaint) String :=
  match contractField.find members with
  | none => .error [⟨[.member contractField.member], .required⟩]
  | some (key, v) =>
    match Validation.text v with
    | .ok s => .ok s
    | .error issue => .error [⟨[.member key], issue⟩]

def readWarnings (origin : Origin) (members : List (String × Json)) :
    Except (List Complaint) (List String) :=
  match warningsField.find members with
  | none => .ok []
  | some (key, v) => Validation.textItems origin [.member key] v

def complaintsOf {α : Type} : Except (List Complaint) α → List Complaint
  | .ok _ => []
  | .error cs => cs

/-- Read a report from the members of a record. -/
def ofMembers (origin : Origin) (members : List (String × Json)) : Except Rejection Report :=
  let contract := readContract members
  let ecrecover := readCount none ecrecoverField members
  let keys := readCount none keyExposureField members
  let risk := readCount (some 100) scoreField members
  let warnings := readWarnings origin members
  match contract, ecrecover, keys, risk, warnings with
  | .ok contract, .ok e, .ok k, .ok s, .ok warnings =>
    if h : s ≤ 100 then .ok ⟨contract, e, k, s, h, warnings⟩
    else .error ⟨model, [⟨[.member scoreField.member], .above 100⟩]⟩
  | _, _, _, _, _ =>
    .error ⟨model, complaintsOf contract ++ complaintsOf ecrecover ++ complaintsOf keys
      ++ complaintsOf risk ++ complaintsOf warnings⟩

/-- Read a report from a value. -/
def ofJson (origin : Origin) : Json → Except Rejection Report
  | .obj members => ofMembers origin members
  | _ => .error ⟨model, [⟨[], .notModel origin model⟩]⟩

/-- Read a report from its text. -/
def ofText (s : String) : Except Rejection Report :=
  match Json.parse? s with
  | some v => ofJson .text v
  | none => .error ⟨model, [⟨[], .notJson⟩]⟩

/-- Reports do not change: setting any field is refused. -/
def assign (field : String) : Rejection := ⟨model, [⟨[.member field], .frozen⟩]⟩

/-! ## Building -/

/-- The report on a contract from what was found in it. -/
def build (contract : String) (found : MatchResult) (w : RiskWeights) :
    Except Rejection Report :=
  ofMembers .memory [(contractField.name, .str contract),
    (ecrecoverField.name, .int (found.count .ecrecoverUsage)),
    (keyExposureField.name, .int (found.count .keyExposure)),
    (scoreField.name, .int (score found.counts w)),
    (warningsField.name, .arr (found.messages.map .str))]

end Report

end QuantumRisk

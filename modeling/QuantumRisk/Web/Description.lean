import QuantumRisk.About
import QuantumRisk.Json.Basic

/-!
# The description of the service

The service describes itself to programs: the addresses it has, what each takes and answers, and the
schemas of the values. An address that takes parameters may also refuse them.
-/

namespace QuantumRisk.Web.Description

/-! ## Schemas -/

/-- The schema of that name. -/
def named (name : String) : Json := .obj [("$ref", .str ("#/components/schemas/" ++ name))]

def ofType (type : String) : Json := .obj [("type", .str type)]

/-- Either of two schemas. -/
def either (a b : Json) : String × Json := ("anyOf", .arr [a, b])

/-- The entries of a list schema. -/
def listOf (item : Json) : List (String × Json) := [("items", item), ("type", .str "array")]

/-- A field of an object: what it holds, its title and what it holds if it is absent. -/
structure Field where
  name : String
  title : String
  shape : List (String × Json)
  absent : Option Json := none
  needed : Bool := false

namespace Field

def text (name title : String) (absent : Option Json := none) : Field :=
  ⟨name, title, [("type", .str "string")], absent, absent.isNone⟩

def whole (name title : String) (absent : Option Json := none) : Field :=
  ⟨name, title, [("type", .str "integer")], absent, absent.isNone⟩

def toEntry (f : Field) : String × Json :=
  (f.name, .obj (f.shape ++ [("title", .str f.title)]
    ++ (f.absent.map fun v ↦ ("default", v)).toList))

end Field

/-- The schema of an object. -/
def objectSchema (title : String) (description : Option String) (fields : List Field) :
    String × Json :=
  let needed := (fields.filter (·.needed)).map fun f ↦ Json.str f.name
  (title, .obj ([("properties", .obj (fields.map (·.toEntry))), ("type", .str "object")]
    ++ (if needed.isEmpty then [] else [("required", .arr needed)])
    ++ [("title", .str title)]
    ++ (description.map fun d ↦ ("description", Json.str d)).toList))

def zero : Json := .float .zero

def reportSchema : String × Json :=
  objectSchema "AnalysisReport"
    (some ("Persisted analysis artifact.\n\nField aliases are the on-disk contract read by "
      ++ "collaborators; they must not\nchange without a schema version bump."))
    [.text "contract" "Contract",
      ⟨"ecrecoverCount", "Ecrecovercount", [("type", .str "integer"), ("minimum", zero)],
        some (.int 0), false⟩,
      ⟨"publicKeyExposureCount", "Publickeyexposurecount",
        [("type", .str "integer"), ("minimum", zero)], some (.int 0), false⟩,
      ⟨"riskScore", "Riskscore",
        [("type", .str "integer"), ("maximum", .float (.quotient 100 1)), ("minimum", zero)],
        some (.int 0), false⟩,
      ⟨"warnings", "Warnings", listOf (ofType "string"), none, false⟩]

def refusalSchema : String × Json :=
  objectSchema "HTTPValidationError" none
    [⟨"detail", "Detail", listOf (named "ValidationError"), none, false⟩]

def digestSchema : String × Json :=
  objectSchema "ReportDigest" (some "Per-report line of the aggregate risk summary.")
    [.text "contract" "Contract", .whole "riskScore" "Riskscore",
      .whole "ecrecoverCount" "Ecrecovercount",
      .whole "publicKeyExposureCount" "Publickeyexposurecount"]

def summarySchema : String × Json :=
  objectSchema "RiskSummary" (some "Aggregate over every report in the output directory.")
    [.whole "totalReports" "Totalreports" (some (.int 0)),
      ⟨"avgRisk", "Avgrisk", [("type", .str "number")], some zero, false⟩,
      ⟨"reports", "Reports", listOf (named "ReportDigest"), none, false⟩]

def scanSchema : String × Json :=
  objectSchema "ScanResponse" (some "Subset of the saved report re-served to the dashboard.")
    [.text "status" "Status" (some (.str "ok")), .text "contract" "Contract",
      .whole "riskScore" "Riskscore", .whole "ecrecoverCount" "Ecrecovercount",
      .whole "publicKeyExposureCount" "Publickeyexposurecount",
      ⟨"warnings", "Warnings", listOf (ofType "string"), some (.arr []), false⟩,
      .text "reportFile" "Reportfile" (some (.str ""))]

def issueSchema : String × Json :=
  objectSchema "ValidationError" none
    [⟨"loc", "Location", listOf (.obj [either (ofType "string") (ofType "integer")]), none, true⟩,
      .text "msg" "Message", .text "type" "Error Type",
      ⟨"input", "Input", [], none, false⟩,
      ⟨"ctx", "Context", [("type", .str "object")], none, false⟩]

/-- The schemas, by name. -/
def schemas : List (String × Json) :=
  [reportSchema, refusalSchema, digestSchema, summarySchema, scanSchema, issueSchema]

/-! ## Addresses -/

/-- The content of an answer. -/
def answering (description : String) (schema : Json) : Json :=
  .obj [("description", .str description),
    ("content", .obj [("application/json", .obj [("schema", schema)])])]

/-- What an address does. -/
structure Operation where
  path : String
  tag : String
  summary : String
  description : Option String
  id : String
  parameters : List Json := []
  result : Json

def Operation.toEntry (o : Operation) : String × Json :=
  let refusal := if o.parameters.isEmpty then []
    else [("422", answering "Validation Error" (named "HTTPValidationError"))]
  (o.path, .obj [("get", .obj ([("tags", .arr [.str o.tag]), ("summary", .str o.summary)]
    ++ (o.description.map fun d ↦ ("description", Json.str d)).toList
    ++ [("operationId", .str o.id)]
    ++ (if o.parameters.isEmpty then [] else [("parameters", .arr o.parameters)])
    ++ [("responses", .obj (("200", answering "Successful Response" o.result) :: refusal))]))])

/-- An object about which nothing more is said. -/
def anyObject (title : String) : Json :=
  .obj [("type", .str "object"), ("additionalProperties", .bool true), ("title", .str title)]

def fileMeaning : Json := .str "Contract path relative to the contracts root"

def fileParameter : Json :=
  .obj [("name", .str "file"), ("in", .str "query"), ("required", .bool false),
    ("schema", .obj [either (ofType "string") (ofType "null"), ("description", fileMeaning),
      ("title", .str "File")]),
    ("description", fileMeaning)]

def operations : List Operation :=
  [{ path := "/", tag := "health", summary := "Root", description := none, id := "root__get"
     result := anyObject "Response Root  Get" },
    { path := "/health", tag := "health", summary := "Health Check"
      description := some "Quick liveness probe.", id := "health_check_health_get"
      result := anyObject "Response Health Check Health Get" },
    { path := "/scan", tag := "scan", summary := "Scan Contract"
      description := some "Run the analyzer on a contract file and return the saved report."
      id := "scan_contract_scan_get", parameters := [fileParameter]
      result := named "ScanResponse" },
    { path := "/reports/latest", tag := "scan", summary := "Latest Report"
      description := some "Most recent saved report.", id := "latest_report_reports_latest_get"
      result := named "AnalysisReport" },
    { path := "/risk-summary", tag := "scan", summary := "Risk Summary"
      description := some "Aggregate risk over every saved report."
      id := "risk_summary_risk_summary_get", result := named "RiskSummary" }]

/-- The whole description. -/
def document : Json :=
  .obj [("openapi", .str "3.1.0"),
    ("info", .obj [("title", .str serviceTitle),
      ("description", .str "Quantum-risk static analysis for Solidity contracts."),
      ("version", .str programVersion)]),
    ("paths", .obj (operations.map (·.toEntry))),
    ("components", .obj [("schemas", .obj schemas)])]

end QuantumRisk.Web.Description

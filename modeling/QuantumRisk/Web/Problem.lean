import QuantumRisk.Failure
import QuantumRisk.Json.Display
import QuantumRisk.Json.Printer

/-!
# Problems on the network

Everything that goes wrong is answered in one form: an object with a code, a message and details.
The code belongs to the failure or to the status; the details depend on the kind of problem.
-/

namespace QuantumRisk.Web

/-- A problem as it is answered. -/
structure Problem where
  status : Nat
  code : String
  message : String
  details : Json := .null
  deriving Inhabited

namespace Problem

def toJson (p : Problem) : Json :=
  .obj [("error", .obj [("code", .str p.code), ("message", .str p.message),
    ("details", p.details)])]

def body (p : Problem) : String := p.toJson.render .wire

/-- The standard phrases of statuses. -/
def phrases : List (Nat × String) :=
  [(100, "Continue"), (101, "Switching Protocols"), (102, "Processing"), (103, "Early Hints"),
    (200, "OK"), (201, "Created"), (202, "Accepted"), (203, "Non-Authoritative Information"),
    (204, "No Content"), (205, "Reset Content"), (206, "Partial Content"), (207, "Multi-Status"),
    (208, "Already Reported"), (226, "IM Used"), (300, "Multiple Choices"),
    (301, "Moved Permanently"), (302, "Found"), (303, "See Other"), (304, "Not Modified"),
    (305, "Use Proxy"), (307, "Temporary Redirect"), (308, "Permanent Redirect"),
    (400, "Bad Request"), (401, "Unauthorized"), (402, "Payment Required"), (403, "Forbidden"),
    (404, "Not Found"), (405, "Method Not Allowed"), (406, "Not Acceptable"),
    (407, "Proxy Authentication Required"), (408, "Request Timeout"), (409, "Conflict"),
    (410, "Gone"), (411, "Length Required"), (412, "Precondition Failed"),
    (413, "Request Entity Too Large"), (414, "Request-URI Too Long"),
    (415, "Unsupported Media Type"), (416, "Requested Range Not Satisfiable"),
    (417, "Expectation Failed"), (418, "I'm a Teapot"), (421, "Misdirected Request"),
    (422, "Unprocessable Entity"), (423, "Locked"), (424, "Failed Dependency"),
    (425, "Too Early"), (426, "Upgrade Required"), (428, "Precondition Required"),
    (429, "Too Many Requests"), (431, "Request Header Fields Too Large"),
    (451, "Unavailable For Legal Reasons"), (500, "Internal Server Error"),
    (501, "Not Implemented"), (502, "Bad Gateway"), (503, "Service Unavailable"),
    (504, "Gateway Timeout"), (505, "HTTP Version Not Supported"),
    (506, "Variant Also Negotiates"), (507, "Insufficient Storage"), (508, "Loop Detected"),
    (510, "Not Extended"), (511, "Network Authentication Required")]

def phrase? (status : Nat) : Option String := List.lookup status phrases

/-- The code of a status; a status without one counts as internal. -/
def codeOf : Nat → String
  | 400 => "BAD_REQUEST"
  | 404 => "NOT_FOUND"
  | 405 => "METHOD_NOT_ALLOWED"
  | 422 => "VALIDATION_ERROR"
  | _ => "INTERNAL_ERROR"

def ofFailure (f : Failure) : Problem :=
  ⟨f.kind.httpStatus, f.code, f.message, .obj f.details⟩

/-- A status with a detail; an empty detail gives way to the code. -/
def ofDetail (status : Nat) (detail : Json) : Problem :=
  { status, code := codeOf status
    message := if detail.isSome then detail.display else codeOf status }

/-- A status with its standard phrase. -/
def ofStatus (status : Nat) : Problem := ofDetail status (.str ((phrase? status).getD ""))

/-- The parts of a place: items of a list, names of a record or characters of a text. -/
private def placeParts : Json → List String
  | .arr items => items.map (·.display)
  | .obj members => members.map (·.1)
  | .str s => s.toList.map fun c ↦ String.ofList [c]
  | _ => []

/-- One error of a request: where it is, what it says and its type. -/
private def requestError (e : Json) : Json :=
  .obj [("field", .str (String.intercalate "." (placeParts ((e.get? "loc").getD (.arr []))))),
    ("message", (e.get? "msg").getD (.str "Invalid value")),
    ("type", (e.get? "type").getD (.str "value_error"))]

/-- A request whose parameters do not fit. -/
def ofRequestErrors (errors : List Json) : Problem where
  status := 422
  code := "VALIDATION_ERROR"
  message := "Request validation failed: " ++ toString errors.length ++ " error(s)"
  details := .arr (errors.map requestError)

/-- Anything that nobody answers for. -/
def internal : Problem := ⟨500, "INTERNAL_ERROR", "An internal server error occurred.", .null⟩

end Problem

end QuantumRisk.Web

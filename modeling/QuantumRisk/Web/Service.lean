import QuantumRisk.About
import QuantumRisk.Analysis
import QuantumRisk.FileSystem.RealPath
import QuantumRisk.Web.Address
import QuantumRisk.Web.Description
import QuantumRisk.Web.Problem

/-!
# The network service

The service answers a few addresses. Contracts are named relative to a root directory, and nothing
outside of it is ever read: a name is resolved to its canonical place first, and refused unless the
root is above it.

All answers go through the layer for requests from other origins, which allows all of them; only
answers to faults that nobody expected do not.
-/

namespace QuantumRisk.Web

structure Request where
  /-- The name that the service was reached by. -/
  host : String := "localhost"
  method : String := "GET"
  /-- The path, with percent signs. -/
  path : String
  query : String := ""
  headers : List (String × String) := []
  deriving Inhabited

structure Response where
  status : Nat
  headers : List (String × String)
  /-- The text of the answer; pages for people are left out. -/
  body : Option String
  /-- The fault behind an answer that nobody expected. -/
  fault : Option Fault := none
  deriving Inhabited

/-! ## Answers -/

def jsonType : String × String := ("content-type", "application/json")

def jsonAnswer (v : Json) : Response := ⟨200, [jsonType], some (v.render .wire), none⟩

def problemAnswer (p : Problem) : Response := ⟨p.status, [jsonType], some p.body, none⟩

/-- The answer to a fault: failures are told, anything else is not. -/
def faultAnswer : Fault → Response
  | .failure f => problemAnswer (.ofFailure f)
  | e => { problemAnswer .internal with fault := some e }

def answerOf (result : Except Fault Json) : Response :=
  match result with
  | .ok v => jsonAnswer v
  | .error e => faultAnswer e

/-! ## Scanning -/

/-- The place of a contract below the root, or the failure to find it there. -/
def resolveContract (s : Settings) (fs : FileSystem) (file : String) : Except Fault Place :=
  match fs.realPlace (.ofString s.contractsRoot) with
  | .error e => .error (.path e)
  | .ok root =>
    match fs.realPlace ((FileSystem.pathOf root).append file) with
    | .error e => .error (.path e)
    | .ok place =>
      if root.isPrefixOf place then .ok place
      else .error (.failure (.notFound file "outside the contracts root"))

/-- What a scan answers: the report and the name of its file. -/
def scanJson (r : Report) (file : String) : Json :=
  .obj [("status", .str "ok"), ("contract", .str r.contract), ("riskScore", .int r.riskScore),
    ("ecrecoverCount", .int r.ecrecoverCount),
    ("publicKeyExposureCount", .int r.keyExposureCount),
    ("warnings", .arr (r.warnings.map .str)), ("reportFile", .str file)]

/-- Scan a contract below the root. -/
def scan (s : Settings) (file : Option String) (w : Workspace) : Except Fault Json × Workspace :=
  match file.getD "" with
  | "" => (.error (.failure (.usage "Missing 'file' query parameter")), w)
  | file =>
    match resolveContract s w.files file with
    | .error e => (.error e, w)
    | .ok place =>
      match Analyzer.ofSettings s with
      | .error e => (.error e, w)
      | .ok analyzer =>
        match analyzer.run (some (FileSystem.pathOf place).text) w with
        | (.error e, _, w) => (.error e, w)
        | (.ok (found, saved), _, w) => (.ok (scanJson found.report saved.name), w)

/-! ## Saved reports -/

def latestReport (s : Settings) (fs : FileSystem) : Except Fault Json :=
  let store := Store.ofSettings s
  match (store.latest fs).1 with
  | .error e => .error e
  | .ok (some r) => .ok r.toJson
  | .ok none => .error (.failure (.notFound store.directory.text "no analysis reports found"))

def riskSummary (s : Settings) (fs : FileSystem) : Except Fault Json :=
  ((Store.ofSettings s).summary fs).1.map (·.toJson)

/-! ## Routes -/

inductive Route where
  | root
  | health
  | scan
  | latestReport
  | riskSummary
  | description
  /-- A page for people. -/
  | page
  deriving DecidableEq, Inhabited, Repr

/-- The addresses that the service has. Pages for people are not shown in production. -/
def routes (s : Settings) : List (String × Route) :=
  [("/", .root), ("/health", .health), ("/scan", .scan), ("/reports/latest", .latestReport),
    ("/risk-summary", .riskSummary), ("/openapi.json", .description)]
    ++ if s.appEnv = "production" then []
      else [("/docs", .page), ("/docs/oauth2-redirect", .page)]

/-- The route of a path; a line feed at its end does not matter. -/
def routeOf (s : Settings) (path : String) : Option Route :=
  ((routes s).find? fun (p, _) ↦ p = path ∨ p ++ "\n" = path).map (·.2)

/-- The methods that a route answers. -/
def Route.methods : Route → List String
  | .description | .page => ["GET", "HEAD"]
  | _ => ["GET"]

/-- Answer at a route. -/
def answer (s : Settings) (route : Route) (query : String) (w : Workspace) :
    Response × Workspace :=
  match route with
  | .root => (jsonAnswer (.obj [("status", .str "running"), ("service", .str programName)]), w)
  | .health =>
    (jsonAnswer (.obj [("status", .str "healthy"), ("service", .str programName),
      ("version", .str programVersion)]), w)
  | .scan =>
    let (result, w) := scan s (lastValue "file" (queryPairs query)) w
    (answerOf result, w)
  | .latestReport => (answerOf (latestReport s w.files), w)
  | .riskSummary => (answerOf (riskSummary s w.files), w)
  | .description => (jsonAnswer Description.document, w)
  | .page => (⟨200, [("content-type", "text/html; charset=utf-8")], none, none⟩, w)

/-- The path with the slash at its end taken away or added. -/
def otherSlash (path : String) : String :=
  match path.toList.reverse with
  | '/' :: rest => String.ofList (rest.dropWhile (· = '/')).reverse
  | _ => path ++ "/"

/-- Answer that a path goes by another spelling. -/
def redirect (host path query : String) : Response :=
  let address := "http://" ++ host ++ path ++ (if query = "" then "" else "?" ++ query)
  ⟨307, [("location", quoteAddress address)], some "", none⟩

/-- Find the route of a request and answer there. -/
def dispatch (s : Settings) (r : Request) (w : Workspace) : Response × Workspace :=
  let path := unquote r.path
  match routeOf s path with
  | some route =>
    if route.methods.contains r.method then answer s route r.query w
    else (problemAnswer (.ofStatus 405), w)
  | none =>
    if path ≠ "/" ∧ (routeOf s (otherSlash path)).isSome then
      (redirect r.host (otherSlash path) r.query, w)
    else (problemAnswer (.ofStatus 404), w)

/-! ## Requests from other origins -/

/-- The value of a header; names are compared without regard to case. -/
def Request.header? (r : Request) (name : String) : Option String :=
  (r.headers.find? fun (k, _) ↦ k.map Char.toLower = name).map (·.2)

/-- The headers that other origins may send, in lower case. -/
def allowedHeaders : List String :=
  ["accept", "accept-language", "content-language", "content-type"]

/-- What is wrong with a request that asks before another one. -/
def preflightFailures (r : Request) (method : String) : List String :=
  let badMethod := if method = "GET" then [] else ["method"]
  let badHeaders := match r.header? "access-control-request-headers" with
    | none => []
    | some names =>
      let known := (names.splitOn ",").all fun n ↦
        allowedHeaders.contains (Text.strip (Text.lower n))
      if known then [] else ["headers"]
  let badNetwork := if (r.header? "access-control-request-private-network").isSome then
    ["private-network"] else []
  badMethod ++ badHeaders ++ badNetwork

/-- Answer a request that asks before another one. -/
def preflight (r : Request) (method : String) : Response :=
  let failures := preflightFailures r method
  let headers := [
    ("access-control-allow-headers",
      "Accept, Accept-Language, Content-Language, Content-Type"),
    ("access-control-allow-methods", "GET"),
    ("access-control-allow-origin", "*"),
    ("access-control-max-age", "600"),
    ("content-type", "text/plain; charset=utf-8"),
    ("vary", "Origin, Access-Control-Request-Method, Access-Control-Request-Headers, "
      ++ "Access-Control-Request-Private-Network")]
  if failures.isEmpty then ⟨200, headers, some "OK", none⟩
  else ⟨400, headers, some ("Disallowed CORS " ++ String.intercalate ", " failures), none⟩

/-- The headers that every expected answer carries. -/
def originHeaders (r : Request) : List (String × String) :=
  (if (r.header? "origin").isSome then [("access-control-allow-origin", "*")] else [])
    ++ [("vary", "Origin")]

/-- Answer a request. -/
def handle (s : Settings) (r : Request) (w : Workspace) : Response × Workspace :=
  match r.method, r.header? "origin", r.header? "access-control-request-method" with
  | "OPTIONS", some _, some method => (preflight r method, w)
  | _, _, _ =>
    let (response, w) := dispatch s r w
    match response.fault with
    | some _ => (response, w)
    | none => ({ response with headers := response.headers ++ originHeaders r }, w)

/-! ## Beginning and end -/

/-- The level that the log of the service is set to, by name. -/
def levelName (s : Settings) : String := if s.debug then "DEBUG" else s.logLevel

/-- Begin and end the service: the setup of the log and what it shows. -/
def lifespan (s : Settings) (clock : Int) : Except Fault (Log.Setup × String) :=
  match Log.setup s.appEnv (levelName s) with
  | .error e => .error (.level e)
  | .ok setup =>
    let events := [.starting s.appName s.appEnv s.reportDir, .stopping s.appName]
    .ok (setup, Event.lines setup clock events)

end QuantumRisk.Web

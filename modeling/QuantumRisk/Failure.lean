import QuantumRisk.Diagnostic
import QuantumRisk.Json.Basic

/-!
# Failures of a run

A run ends in a report or in a failure. There are four families of failures, and a general one; each
has a stable code, an exit code for the console and a status for the network. A failure carries a
message and details.
-/

namespace QuantumRisk

inductive FailureKind where
  | general
  /-- No contract was named. -/
  | usage
  /-- The contract is not a readable file. -/
  | notFound
  /-- Nothing could be recovered from the source. -/
  | parse
  /-- The report could not be saved. -/
  | write
  deriving DecidableEq, Inhabited, Repr

namespace FailureKind

def code : FailureKind → String
  | .general => "USAGE_ERROR"
  | .usage => "USAGE_ERROR"
  | .notFound => "NOT_FOUND"
  | .parse => "PARSE_ERROR"
  | .write => "WRITE_ERROR"

def exitCode : FailureKind → Nat
  | .general => 1
  | .usage => 2
  | .notFound => 1
  | .parse => 1
  | .write => 3

def httpStatus : FailureKind → Nat
  | .general => 500
  | .usage => 400
  | .notFound => 404
  | .parse => 422
  | .write => 500

end FailureKind

structure Failure where
  kind : FailureKind
  message : String
  details : List (String × Json)
  deriving Inhabited

/-- A diagnostic as a JSON object. -/
def Diagnostic.toJson (d : Diagnostic) : Json :=
  .obj [("line", .int d.line), ("column", .int d.column), ("message", .str d.message)]

namespace Failure

def usage (message : String) : Failure := ⟨.usage, message, []⟩

def notFound (path : String) (reason : String) : Failure :=
  ⟨.notFound, reason ++ ": " ++ path, [("path", .str path)]⟩

def parse (message contract : String) (diagnostics : List Json) : Failure :=
  ⟨.parse, message, [("contract", .str contract), ("diagnostics", .arr diagnostics)]⟩

def write (message directory : String) : Failure :=
  ⟨.write, message, [("directory", .str directory)]⟩

def code (f : Failure) : String := f.kind.code

/-- The text with the code in front. -/
def text (f : Failure) : String := "[" ++ f.code ++ "] " ++ f.message

def toJson (f : Failure) : Json :=
  .obj [("code", .str f.code), ("message", .str f.message), ("details", .obj f.details)]

end Failure

end QuantumRisk

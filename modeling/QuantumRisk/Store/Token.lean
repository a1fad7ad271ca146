/-!
# Tokens and report names

Reports are named by tokens. A token is the time in milliseconds since the epoch, or one more than
the last token if the clock has not moved on; so tokens strictly increase, whatever the clock does.
A name shows its token with leading zeros, so that names sort as their tokens do.
-/

namespace QuantumRisk.Store

/-- The milliseconds of a time in nanoseconds. -/
def millis (ns : Int) : Int := Int.fdiv ns 1000000

/-- The token after `last` at a time in nanoseconds. -/
def nextToken (last ns : Int) : Int := max (millis ns) (last + 1)

/-- The tokens drawn at a sequence of times. -/
def tokens (last : Int) : List Int → List Int
  | [] => []
  | ns :: rest => nextToken last ns :: tokens (nextToken last ns) rest

def tokenWidth : Nat := 13

/-- A number with leading zeros up to a width; a sign counts. -/
def padded (width : Nat) (n : Int) : String :=
  let sign := if n < 0 then ['-'] else []
  let digits := Nat.toDigits 10 n.natAbs
  String.ofList (sign ++ List.replicate (width - sign.length - digits.length) '0' ++ digits)

def defaultSuffix : String := "-analysis.json"

/-- The name of the report with a token. -/
def reportName (token : Int) (suffix : String) : String := padded tokenWidth token ++ suffix

end QuantumRisk.Store

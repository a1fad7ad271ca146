import QuantumRisk.Json.Reader
import QuantumRisk.Text.Utf8

/-!
# Addresses

In an address a percent sign with two hexadecimal digits stands for a byte. A query is a list of
names with values; a plus sign in it stands for a blank.
-/

namespace QuantumRisk.Web

open Json.Reader (hexValue)

/-! ## Percent signs -/

/-- The bytes of a run of characters below 128; a percent sign without two digits stands for
itself. -/
def percentBytes : List Char → List UInt8
  | [] => []
  | '%' :: a :: b :: rest =>
    match hexValue a, hexValue b with
    | some x, some y => UInt8.ofNat (x * 16 + y) :: percentBytes rest
    | _, _ => UInt8.ofNat '%'.toNat :: percentBytes (a :: b :: rest)
  | c :: rest => UInt8.ofNat c.toNat :: percentBytes rest

/-- The text of a run of characters below 128. -/
def percentText (run : List Char) : List Char := (Text.decodeLossy (percentBytes run)).toList

/-- Decode run by run; `run` is the run before the rest, backwards. -/
def unquoteFrom (run : List Char) : List Char → List Char
  | [] => percentText run.reverse
  | c :: rest =>
    if c.toNat < 128 then unquoteFrom (c :: run) rest
    else percentText run.reverse ++ c :: unquoteFrom [] rest

/-- Replace percent signs by what they stand for. -/
def unquote (s : String) : String := String.ofList (unquoteFrom [] s.toList)

/-! ## Queries -/

/-- A query as it arrives: one character for each byte. -/
def rawQuery (query : String) : List Char := (Text.encode query).map fun b ↦ Char.ofNat b.toNat

/-- Decode a name or a value of a query. -/
def queryText (cs : List Char) : String :=
  unquote (String.ofList (cs.map fun c ↦ if c = '+' then ' ' else c))

/-- A name and its value. -/
def queryPair (cs : List Char) : String × String :=
  let name := cs.takeWhile (· ≠ '=')
  (queryText name, queryText ((cs.drop name.length).drop 1))

/-- The pieces of a query between ampersands. -/
def queryPieces : List Char → List (List Char)
  | [] => [[]]
  | '&' :: rest => [] :: queryPieces rest
  | c :: rest =>
    match queryPieces rest with
    | [] => [[c]]
    | piece :: pieces => (c :: piece) :: pieces

/-- The names and values of a query, in order. -/
def queryPairs (query : String) : List (String × String) :=
  ((queryPieces (rawQuery query)).filter (· ≠ [])).map queryPair

/-- The last value of a name. -/
def lastValue (name : String) (pairs : List (String × String)) : Option String :=
  (pairs.reverse.find? (·.1 = name)).map (·.2)

/-! ## Writing addresses -/

/-- The characters that an address holds as they are, beside letters and digits. -/
def plainMarks : List Char := "_.-~:/%#?=@[]!$&'()*+,;".toList

def hexDigit (n : Nat) : Char := Char.ofNat (if n < 10 then 0x30 + n else 0x41 + n - 10)

/-- A byte in an address. -/
def quoteByte (b : UInt8) : List Char :=
  let c := Char.ofNat b.toNat
  if b.toNat < 128 ∧ (c.isAlphanum ∨ c ∈ plainMarks) then [c]
  else ['%', hexDigit (b.toNat / 16), hexDigit (b.toNat % 16)]

/-- An address with percent signs for all that it cannot hold. -/
def quoteAddress (s : String) : String := String.ofList ((Text.encode s).flatMap quoteByte)

end QuantumRisk.Web

import QuantumRisk.Json.Basic

/-!
# Reading JSON text

A reader for standard JSON, with the three extra literals `NaN`, `Infinity` and `-Infinity`.
Everything else is refused: control characters and unpaired surrogates in strings, leading zeros,
text behind the value.

Each function takes the rest of the text and gives what is left of it. Values nest, so the reader of
values carries a bound on the depth of nesting, which the length of the text supplies.
-/

namespace QuantumRisk.Json.Reader

open Number (Binary64)

def isSpace (c : Char) : Bool := c == ' ' || c == '\t' || c == '\n' || c == '\r'

def skipSpace (cs : List Char) : List Char := cs.dropWhile isSpace

/-! ## Strings -/

def hexValue (c : Char) : Option Nat :=
  if '0' ≤ c && c ≤ '9' then some (c.toNat - '0'.toNat)
  else if 'a' ≤ c && c ≤ 'f' then some (c.toNat - 'a'.toNat + 10)
  else if 'A' ≤ c && c ≤ 'F' then some (c.toNat - 'A'.toNat + 10)
  else none

/-- The number written by four hexadecimal digits. -/
def unit (a b c d : Char) : Option Nat := do
  let a ← hexValue a
  let b ← hexValue b
  let c ← hexValue c
  let d ← hexValue d
  return ((a * 16 + b) * 16 + c) * 16 + d

def isHighSurrogate (n : Nat) : Bool := 0xD800 ≤ n && n < 0xDC00

def isLowSurrogate (n : Nat) : Bool := 0xDC00 ≤ n && n < 0xE000

/-- The character of a pair of surrogates. -/
def joinSurrogates (high low : Nat) : Char :=
  Char.ofNat (0x10000 + (high - 0xD800) * 0x400 + (low - 0xDC00))

/-- The character behind a backslash, for escapes of one letter. -/
def shortEscape : Char → Option Char
  | '"' => some '"'
  | '\\' => some '\\'
  | '/' => some '/'
  | 'b' => some '\x08'
  | 'f' => some '\x0c'
  | 'n' => some '\n'
  | 'r' => some '\r'
  | 't' => some '\t'
  | _ => none

/-- The rest of a string behind its opening quote. -/
def stringBody : List Char → Option (List Char × List Char)
  | [] => none
  | '"' :: rest => some ([], rest)
  | '\\' :: 'u' :: a :: b :: c :: d :: rest => do
    let n ← unit a b c d
    if isHighSurrogate n then
      match rest with
      | '\\' :: 'u' :: e :: f :: g :: h :: rest' =>
        let m ← unit e f g h
        if isLowSurrogate m then
          let (s, left) ← stringBody rest'
          return (joinSurrogates n m :: s, left)
        else none
      | _ => none
    else if isLowSurrogate n then none
    else
      let (s, left) ← stringBody rest
      return (Char.ofNat n :: s, left)
  | '\\' :: c :: rest => do
    let e ← shortEscape c
    let (s, left) ← stringBody rest
    return (e :: s, left)
  | '\\' :: [] => none
  | c :: rest =>
    if c.toNat < 0x20 then none
    else do
      let (s, left) ← stringBody rest
      return (c :: s, left)

/-! ## Numbers -/

/-- The value of a run of decimal digits. -/
def digitsValue (cs : List Char) : Nat :=
  cs.foldl (fun n c ↦ n * 10 + (c.toNat - '0'.toNat)) 0

/-- A run of digits and the rest. -/
def takeDigits (cs : List Char) : List Char × List Char := cs.span Char.isDigit

/-- An exponent, if one is written here; `none` inside means that it is malformed. -/
def takeExponent (cs : List Char) : Option (Option Int × List Char) :=
  match cs with
  | e :: rest =>
    if e == 'e' || e == 'E' then
      let (negative, rest) := match rest with
        | '-' :: r => (true, r)
        | '+' :: r => (false, r)
        | r => (false, r)
      let (ds, left) := takeDigits rest
      if ds.isEmpty then none
      else
        let n : Int := digitsValue ds
        some (some (if negative then -n else n), left)
    else some (none, cs)
  | [] => some (none, cs)

/-- A number without its sign. -/
def unsigned (negative : Bool) (cs : List Char) : Option (Json × List Char) := do
  let (whole, rest) := takeDigits cs
  if whole.isEmpty || (whole.length > 1 && whole.head? == some '0') then none
  let (frac, rest) ← match rest with
    | '.' :: r =>
      let (ds, left) := takeDigits r
      if ds.isEmpty then none else some (some ds, left)
    | r => some (none, r)
  let (exp, rest) ← takeExponent rest
  match frac, exp with
  | none, none =>
    let n : Int := digitsValue whole
    return (.int (if negative then -n else n), rest)
  | _, _ =>
    let ds := frac.getD []
    let e : Int := exp.getD 0 - ds.length
    return (.float (.ofDecimal negative (digitsValue (whole ++ ds)) e), rest)

/-- Take a word off the front of a text. -/
def expect (text : String) (cs : List Char) : Option (List Char) :=
  if text.toList.isPrefixOf cs then some (cs.drop text.length) else none

/-! ## Values -/

mutual

/-- A value behind blanks. -/
def value : Nat → List Char → Option (Json × List Char)
  | 0, _ => none
  | fuel + 1, cs =>
    match skipSpace cs with
    | '"' :: rest => do
      let (s, left) ← stringBody rest
      return (.str (String.ofList s), left)
    | '[' :: rest =>
      match skipSpace rest with
      | ']' :: left => some (.arr [], left)
      | _ => do
        let (items, left) ← items fuel rest
        return (.arr items, left)
    | '\x7b' :: rest =>
      match skipSpace rest with
      | '\x7d' :: left => some (.obj [], left)
      | _ => do
        let (members, left) ← members fuel rest []
        return (.obj members, left)
    | '-' :: rest =>
      match expect "Infinity" rest with
      | some left => some (.float (.infinite true), left)
      | none => unsigned true rest
    | c :: rest =>
      if c.isDigit then unsigned false (c :: rest)
      else if c == 't' then (expect "rue" rest).map ((.bool true), ·)
      else if c == 'f' then (expect "alse" rest).map ((.bool false), ·)
      else if c == 'n' then (expect "ull" rest).map (.null, ·)
      else if c == 'N' then (expect "aN" rest).map (.float .nan, ·)
      else if c == 'I' then (expect "nfinity" rest).map (.float (.infinite false), ·)
      else none
    | [] => none

/-- The items of an array up to its closing bracket. -/
def items : Nat → List Char → Option (List Json × List Char)
  | 0, _ => none
  | fuel + 1, cs => do
    let (v, rest) ← value fuel cs
    match skipSpace rest with
    | ',' :: rest' =>
      let (vs, left) ← items fuel rest'
      return (v :: vs, left)
    | ']' :: left => return ([v], left)
    | _ => none

/-- The members of an object up to its closing brace, added to those before. -/
def members : Nat → List Char → List (String × Json) →
    Option (List (String × Json) × List Char)
  | 0, _, _ => none
  | fuel + 1, cs, before =>
    match skipSpace cs with
    | '"' :: rest => do
      let (k, rest) ← stringBody rest
      match skipSpace rest with
      | ':' :: rest =>
        let (v, rest) ← value fuel rest
        let now := Json.put (String.ofList k) v before
        match skipSpace rest with
        | ',' :: rest' => members fuel rest' now
        | '\x7d' :: left => return (now, left)
        | _ => none
      | _ => none
    | _ => none

end

end QuantumRisk.Json.Reader

namespace QuantumRisk.Json

/-- Read a JSON text. -/
def parse? (text : String) : Option Json :=
  let cs := text.toList
  match Reader.value (cs.length + 1) cs with
  | some (v, left) => if (Reader.skipSpace left).isEmpty then some v else none
  | none => none

end QuantumRisk.Json

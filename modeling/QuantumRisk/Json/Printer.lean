import QuantumRisk.Json.Basic
import QuantumRisk.Number.Shortest

/-!
# Writing JSON text

All writers share one set of escapes: quote, backslash, the five control characters with a short
escape, and every other character below the blank as four hexadecimal digits. A style decides
whether characters beyond ASCII are escaped as well, as UTF-16 units, and how the text is laid out.
-/

namespace QuantumRisk.Json

open Number (Binary64)

/-- How members and items are separated. -/
inductive Layout where
  /-- Nothing but the punctuation. -/
  | compact
  /-- On one line, with a blank behind commas and colons. -/
  | spaced
  /-- One item or member a line, indented by two. -/
  | indented
  deriving DecidableEq

structure Style where
  /-- Escape everything beyond ASCII. -/
  ascii : Bool
  layout : Layout

namespace Style

/-- The style of saved reports. -/
def report : Style := ⟨false, .indented⟩

/-- The style of bodies sent over the network. -/
def wire : Style := ⟨false, .compact⟩

/-- The style of summaries on the console. -/
def console : Style := ⟨true, .indented⟩

/-- The style of log lines. -/
def log : Style := ⟨true, .spaced⟩

end Style

/-! ## Strings -/

def hexDigit (n : Nat) : Char :=
  if n < 10 then Char.ofNat ('0'.toNat + n) else Char.ofNat ('a'.toNat + (n - 10))

/-- An escape of four hexadecimal digits. -/
def escapeUnit (n : Nat) : List Char :=
  ['\\', 'u', hexDigit (n / 4096 % 16), hexDigit (n / 256 % 16), hexDigit (n / 16 % 16),
    hexDigit (n % 16)]

/-- One character inside quotes. -/
def escapeChar (ascii : Bool) (c : Char) : List Char :=
  if c == '"' then ['\\', '"']
  else if c == '\\' then ['\\', '\\']
  else if c == '\x08' then ['\\', 'b']
  else if c == '\x0c' then ['\\', 'f']
  else if c == '\n' then ['\\', 'n']
  else if c == '\r' then ['\\', 'r']
  else if c == '\t' then ['\\', 't']
  else if c.toNat < 0x20 then escapeUnit c.toNat
  else if ascii && c.toNat ≥ 0x7f then
    if c.toNat < 0x10000 then escapeUnit c.toNat
    else
      let n := c.toNat - 0x10000
      escapeUnit (0xD800 + n / 0x400) ++ escapeUnit (0xDC00 + n % 0x400)
  else [c]

def quoteChars (ascii : Bool) (s : String) : List Char :=
  '"' :: (s.toList.flatMap (escapeChar ascii) ++ ['"'])

def quote (ascii : Bool) (s : String) : String := String.ofList (quoteChars ascii s)

/-! ## Values -/

/-- The text of a number in double precision; the values that are not numbers have names. -/
def floatText : Binary64 → String
  | .nan => "NaN"
  | .infinite negative => if negative then "-Infinity" else "Infinity"
  | x => x.text

/-- What stands between two entries, and before the first and behind the last, at a depth. -/
def separators (layout : Layout) (depth : Nat) : String × String × String :=
  match layout with
  | .compact => (",", "", "")
  | .spaced => (", ", "", "")
  | .indented =>
    let line := fun d ↦ "\n" ++ String.ofList (List.replicate (2 * d) ' ')
    ("," ++ line (depth + 1), line (depth + 1), line depth)

/-- What stands between a key and its value. -/
def colon : Layout → String
  | .compact => ":"
  | _ => ": "

mutual

def renderAt (style : Style) (depth : Nat) : Json → String
  | .null => "null"
  | .bool b => if b then "true" else "false"
  | .int n => toString n
  | .float x => floatText x
  | .str s => quote style.ascii s
  | .arr [] => "[]"
  | .arr (v :: vs) =>
    let (between, before, behind) := separators style.layout depth
    "[" ++ before ++ renderAt style (depth + 1) v ++ renderItems style depth between vs ++ behind
      ++ "]"
  | .obj [] => "\x7b\x7d"
  | .obj ((k, v) :: ms) =>
    let (between, before, behind) := separators style.layout depth
    "\x7b" ++ before ++ quote style.ascii k ++ colon style.layout ++ renderAt style (depth + 1) v
      ++ renderMembers style depth between ms ++ behind ++ "\x7d"

def renderItems (style : Style) (depth : Nat) (between : String) : List Json → String
  | [] => ""
  | v :: vs => between ++ renderAt style (depth + 1) v ++ renderItems style depth between vs

def renderMembers (style : Style) (depth : Nat) (between : String) :
    List (String × Json) → String
  | [] => ""
  | (k, v) :: ms =>
    between ++ quote style.ascii k ++ colon style.layout ++ renderAt style (depth + 1) v
      ++ renderMembers style depth between ms

end

/-- The text of a value. -/
def render (style : Style) (v : Json) : String := renderAt style 0 v

end QuantumRisk.Json

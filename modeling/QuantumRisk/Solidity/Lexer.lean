import QuantumRisk.Solidity.Vocabulary

/-!
# Splitting Solidity text into words

At each place the longest word wins, and among words of equal length the one that comes first in the
vocabulary. Blanks are dropped; comments are kept among the words but not among the tokens.

Only two things cannot be read: a character that begins no word, and a string that is not closed. An
unclosed string is reported up to and including the character that breaks it, and reading goes on
behind that character.
-/

namespace QuantumRisk.Solidity

open QuantumRisk.Grammar

/-! ## Shapes of words

Each shape gives the length of the longest word of that shape at the start of a text, `0` if there
is none. -/

def isLetter (c : Char) : Bool := c.isAlpha || c == '$' || c == '_'

def isWordChar (c : Char) : Bool := isLetter c || c.isDigit

def isBlank (c : Char) : Bool :=
  c == ' ' || c == '\t' || c == '\r' || c == '\n' || c == '\x0c'

def isHexDigit (c : Char) : Bool :=
  c.isDigit || ('a' ≤ c && c ≤ 'f') || ('A' ≤ c && c ≤ 'F')

/-- Digits with single underscores between them. -/
def digits (p : Char → Bool) : List Char → Nat
  | c :: '_' :: d :: rest => if !p c then 0 else if p d then digits p (d :: rest) + 2 else 1
  | c :: rest => if p c then digits p rest + 1 else 0
  | [] => 0

/-- An exponent behind a number; it has no sign. -/
def exponent : List Char → Nat
  | e :: rest =>
    let n := digits Char.isDigit rest
    if (e == 'e' || e == 'E') && n > 0 then n + 1 else 0
  | [] => 0

/-- A fraction behind a number: a point and digits. -/
def fraction : List Char → Nat
  | '.' :: rest =>
    let n := digits Char.isDigit rest
    if n > 0 then n + 1 else 0
  | _ => 0

def decimalNumber (cs : List Char) : Nat :=
  let whole := digits Char.isDigit cs
  let part := fraction (cs.drop whole)
  let n := whole + part
  if n == 0 then 0 else n + exponent (cs.drop n)

def hexNumber : List Char → Nat
  | '0' :: x :: rest =>
    let n := digits isHexDigit rest
    if (x == 'x' || x == 'X') && n > 0 then n + 2 else 0
  | _ => 0

/-- Up to three groups of digits with points between them. -/
def versionLiteral (cs : List Char) : Nat :=
  let run := fun (cs : List Char) ↦ (cs.takeWhile Char.isDigit).length
  let group := fun (cs : List Char) ↦
    match cs with
    | '.' :: rest => if run rest > 0 then run rest + 1 else 0
    | _ => 0
  let n := run cs
  if n == 0 then 0
  else
    let m := group (cs.drop n)
    if m == 0 then n else n + m + group (cs.drop (n + m))

/-- The rest of a string after its opening quote: its length with the closing quote, or the number
of characters before the one that breaks it. -/
def stringBody (quote : Char) : List Char → Except Nat Nat
  | [] => .error 0
  | '\\' :: _ :: rest => (stringBody quote rest).map (· + 2) |>.mapError (· + 2)
  | '\\' :: [] => .error 1
  | c :: rest =>
    if c == quote then .ok 1
    else if c == '\r' || c == '\n' then .error 0
    else (stringBody quote rest).map (· + 1) |>.mapError (· + 1)

def quoted (cs : List Char) : Nat :=
  match cs with
  | q :: rest =>
    if q == '"' || q == '\'' then
      match stringBody q rest with
      | .ok n => n + 1
      | .error _ => 0
    else 0
  | [] => 0

def stringWord (cs : List Char) : Nat :=
  let lead := "unicode".toList
  if lead.isPrefixOf cs then
    let n := quoted (cs.drop lead.length)
    if n == 0 then 0 else lead.length + n
  else quoted cs

def hexWord (cs : List Char) : Nat :=
  let lead := "hex".toList
  match lead.isPrefixOf cs, cs.drop lead.length with
  | true, q :: rest =>
    if q == '"' || q == '\'' then
      let n := digits isHexDigit rest
      if (rest.drop n).head? == some q then lead.length + n + 2 else 0
    else 0
  | _, _ => 0

def lineComment : List Char → Nat
  | '/' :: '/' :: rest => (rest.takeWhile fun c ↦ c != '\r' && c != '\n').length + 2
  | _ => 0

/-- The length up to and including the first `*/`. -/
def commentBody : List Char → Nat
  | '*' :: '/' :: _ => 2
  | _ :: rest =>
    let n := commentBody rest
    if n == 0 then 0 else n + 1
  | [] => 0

def blockComment : List Char → Nat
  | '/' :: '*' :: rest =>
    let n := commentBody rest
    if n == 0 then 0 else n + 2
  | _ => 0

/-! ## Classes of words made of letters and digits -/

/-- A type family followed by a bit width that is a multiple of eight up to 256. -/
def isWidthType (family text : String) : Bool :=
  text == family || (List.range 32).any fun i ↦ text == family ++ toString (8 * (i + 1))

def isByteType (text : String) : Bool :=
  text == "bytes" || (List.range 32).any fun i ↦ text == "bytes" ++ toString (i + 1)

/-- `fixed` and `ufixed`, alone or with two numbers joined by `x`. -/
def isFixedType (family text : String) : Bool :=
  let cs := text.toList
  let lead := family.toList
  text == family ||
    (lead.isPrefixOf cs &&
      (let rest := cs.drop lead.length
       let bits := rest.takeWhile Char.isDigit
       match rest.drop bits.length with
       | 'x' :: places => !bits.isEmpty && !places.isEmpty && places.all Char.isDigit
       | _ => false))

def numberUnits : List String :=
  ["wei", "gwei", "szabo", "finney", "ether", "seconds", "minutes", "hours", "days", "weeks",
    "years"]

/-- Words set aside for later use of the language. Some of them are spelled words as well, and are
then read as such. -/
def reservedWords : List String :=
  ["abstract", "after", "case", "catch", "default", "final", "in", "inline", "let", "match", "null",
    "of", "relocatable", "static", "switch", "try", "typeof"]

/-- The class of a word of letters and digits that is not spelled out in the vocabulary. -/
def wordClass (text : String) : Kind :=
  if isWidthType "int" text then classOf "Int"
  else if isWidthType "uint" text then classOf "Uint"
  else if isByteType text then classOf "Byte"
  else if isFixedType "fixed" text then classOf "Fixed"
  else if isFixedType "ufixed" text then classOf "Ufixed"
  else if text == "true" || text == "false" then classOf "BooleanLiteral"
  else if numberUnits.contains text then classOf "NumberUnit"
  else if reservedWords.contains text then classOf "ReservedKeyword"
  else classOf "Identifier"

/-! ## Reading one word -/

/-- What stands at the start of a text. -/
inductive Piece where
  | token (kind : Kind)
  | comment
  | blank
  /-- Nothing that can be read. -/
  | unreadable
  deriving DecidableEq

/-- The spelled words that are not made of letters. -/
def symbols : List (List Char × Kind) :=
  terminals.filterMap fun
    | .spelled text =>
      if text.toList.all isWordChar then none else some (text.toList, word text)
    | .named _ => none

/-- The kinds of the spelled words that are made of letters. -/
def letterWords : Std.TreeMap String Kind :=
  Std.TreeMap.ofList <| terminals.filterMap fun
    | .spelled text => if text.toList.all isWordChar then some (text, word text) else none
    | .named _ => none

/-- The word of letters and digits at the start of a text. -/
def plainWord (cs : List Char) : List (Nat × Piece) :=
  let letters := cs.takeWhile isWordChar
  let text := String.ofList letters
  match letters with
  | c :: _ =>
    if isLetter c then [(letters.length, .token ((letterWords[text]?).getD (wordClass text)))]
    else []
  | [] => []

/-- Everything that could be read at the start of a text, in the order of preference. -/
def candidates (cs : List Char) : List (Nat × Piece) :=
  (symbols.filterMap fun (text, kind) ↦
    if text.isPrefixOf cs then some (text.length, .token kind) else none)
  ++ [(decimalNumber cs, .token (classOf "DecimalNumber")),
      (hexNumber cs, .token (classOf "HexNumber")),
      (hexWord cs, .token (classOf "HexLiteralFragment"))]
  ++ plainWord cs
  ++ [(stringWord cs, .token (classOf "StringLiteralFragment")),
      (versionLiteral cs, .token (classOf "VersionLiteral")),
      ((cs.takeWhile isBlank).length, .blank),
      (blockComment cs, .comment),
      (lineComment cs, .comment)]

/-- How far an unreadable piece goes: one character, or an unclosed string with the character that
breaks it. -/
def unreadableLength : List Char → Nat
  | q :: rest =>
    if q == '"' || q == '\'' then
      match stringBody q rest with
      | .error n => n + 2
      | .ok _ => 1
    else 1
  | [] => 1

/-- The piece at the start of a text, with its length. -/
def nextPiece (cs : List Char) : Nat × Piece :=
  (candidates cs).foldl (fun best c ↦ if c.1 > best.1 then c else best) (0, .unreadable)

/-! ## Reading a whole text -/

/-- A place in a text. -/
structure Place where
  line : Nat := 1
  column : Nat := 0

/-- The place behind some characters. -/
def Place.after (p : Place) (cs : List Char) : Place :=
  cs.foldl (fun p c ↦ if c == '\n' then ⟨p.line + 1, 0⟩ else ⟨p.line, p.column + 1⟩) p

/-- What has been read so far. -/
structure Scan where
  words : Array Token := #[]
  tokens : Array Token := #[]
  faults : Array (Nat × Diagnostic) := #[]

namespace Scan

def token (s : Scan) (kind : Kind) (text : String) (p : Place) : Scan :=
  let t : Token := { kind, text, line := p.line, column := p.column, place := s.words.size }
  { s with words := s.words.push t, tokens := s.tokens.push t }

/-- A comment is a word but not a token; no rule asks for its kind. -/
def comment (s : Scan) (text : String) (p : Place) : Scan :=
  let t : Token := { kind := terminals.length + 1, text, line := p.line, column := p.column,
                     place := s.words.size }
  { s with words := s.words.push t }

def fault (s : Scan) (text : String) (p : Place) : Scan :=
  let shown := ((text.replace "\n" "\\n").replace "\t" "\\t").replace "\r" "\\r"
  let d : Diagnostic := { line := p.line, column := p.column,
                          message := "token recognition error at: '" ++ shown ++ "'" }
  { s with faults := s.faults.push (s.tokens.size, d) }

end Scan

/-- Read the pieces of a text one after the other, at most `fuel` of them. -/
def scanFrom : Nat → List Char → Place → Scan → Scan
  | 0, _, p, s => s.token endOfInput "<EOF>" p
  | _, [], p, s => s.token endOfInput "<EOF>" p
  | fuel + 1, cs, p, s =>
    let (n, piece) := nextPiece cs
    let n := max n 1
    match piece with
    | .token kind =>
      scanFrom fuel (cs.drop n) (p.after (cs.take n)) (s.token kind (String.ofList (cs.take n)) p)
    | .comment =>
      scanFrom fuel (cs.drop n) (p.after (cs.take n)) (s.comment (String.ofList (cs.take n)) p)
    | .blank => scanFrom fuel (cs.drop n) (p.after (cs.take n)) s
    | .unreadable =>
      let m := max (unreadableLength cs) 1
      scanFrom fuel (cs.drop m) (p.after (cs.take m)) (s.fault (String.ofList (cs.take m)) p)

/-- The words of a Solidity text. No piece is empty, so there are no more of them than
characters. -/
def scan (text : String) : Input :=
  let s := scanFrom text.toList.length text.toList {} {}
  { words := s.words, tokens := s.tokens, faults := s.faults.toList }

end QuantumRisk.Solidity

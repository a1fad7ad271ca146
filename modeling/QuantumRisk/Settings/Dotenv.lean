import QuantumRisk.Text.Blank

/-!
# Settings files

A settings file holds lines `NAME=value`. A line may begin with `export`; a number sign begins a
comment; blanks around the equals sign do not matter. A value in single quotes is taken as it
stands, in double quotes it may hold escapes and line breaks; without quotes it ends at a comment or
at the end of the line. A line that does not fit is skipped. `${NAME}` inside a value stands for the
value of another name.
-/

namespace QuantumRisk.Settings

open Text (isBlank)

/-- A name, and its value if one is given. -/
abbrev Binding := String × Option String

def isLineEnd (c : Char) : Bool := c == '\n' || c == '\r'

/-- A blank within a line. -/
def isInlineBlank (c : Char) : Bool := isBlank c && !isLineEnd c

def skipInline (cs : List Char) : List Char := cs.dropWhile isInlineBlank

/-- Skip the word `export` with the blanks behind it. -/
def skipExport (cs : List Char) : List Char :=
  if "export".toList.isPrefixOf cs then
    match cs.drop 6 with
    | c :: rest => if isInlineBlank c then skipInline rest else cs
    | [] => cs
  else cs

/-- A name: in single quotes, or up to a blank, an equals sign or a number sign. A comment has
none. -/
def readName (cs : List Char) : Option (Option String × List Char) :=
  match cs with
  | '#' :: _ => some (none, cs)
  | '\'' :: rest =>
    let name := rest.takeWhile (· != '\'')
    match rest.drop name.length with
    | _ :: left => if name.isEmpty then none else some (some (String.ofList name), left)
    | [] => none
  | cs =>
    let name := cs.takeWhile fun c ↦ !(isBlank c || c == '=' || c == '#')
    if name.isEmpty then none else some (some (String.ofList name), cs.drop name.length)

/-- The text up to the closing quote, with the rest. A quote behind a backslash does not close,
unless there is no other. -/
def readQuoted (mark : Char) (cs : List Char) : Option (List Char × List Char) :=
  go cs [] none
where
  /-- `last` is the place of the last quote behind a backslash. -/
  go : List Char → List Char → Option (List Char × List Char) →
      Option (List Char × List Char)
    | [], _, last => last
    | c :: rest, before, last =>
      if c == mark then some (before.reverse, rest)
      else if c == '\\' then
        match rest with
        | d :: rest' =>
          if d == mark then go rest' (d :: c :: before) (some ((c :: before).reverse, rest'))
          else go (d :: rest') (c :: before) last
        | [] => go [] (c :: before) last
      else go rest (c :: before) last

/-- The characters that a backslash stands before in double quotes. -/
def doubleEscape : Char → Option Char
  | '\\' => some '\\'
  | '\'' => some '\''
  | '"' => some '"'
  | 'a' => some '\x07'
  | 'b' => some '\x08'
  | 'f' => some '\x0c'
  | 'n' => some '\n'
  | 'r' => some '\r'
  | 't' => some '\t'
  | 'v' => some '\x0b'
  | _ => none

def singleEscape : Char → Option Char
  | '\\' => some '\\'
  | '\'' => some '\''
  | _ => none

/-- Replace escapes. -/
def unescape (escape : Char → Option Char) : List Char → List Char
  | '\\' :: c :: rest =>
    match escape c with
    | some d => d :: unescape escape rest
    | none => '\\' :: unescape escape (c :: rest)
  | c :: rest => c :: unescape escape rest
  | [] => []

/-- Cut a value at a number sign behind a blank. -/
def cutComment (cs : List Char) : List Char :=
  match cs with
  | [] => []
  | c :: rest =>
    if isBlank c && (rest.dropWhile isBlank).head? == some '#' then []
    else c :: cutComment rest

/-- A value behind the equals sign, with the rest. -/
def readValue (cs : List Char) : Option (String × List Char) :=
  match cs with
  | '\'' :: rest => do
    let (v, left) ← readQuoted '\'' rest
    return (String.ofList (unescape singleEscape v), left)
  | '"' :: rest => do
    let (v, left) ← readQuoted '"' rest
    return (String.ofList (unescape doubleEscape v), left)
  | cs =>
    let line := cs.takeWhile (!isLineEnd ·)
    let v := ((cutComment line).reverse.dropWhile isBlank).reverse
    some (String.ofList v, cs.drop line.length)

/-- A comment and the end of the line; `none` if anything else is there. -/
def endLine (cs : List Char) : Option (List Char) :=
  let cs := match skipInline cs with
    | '#' :: rest => rest.dropWhile (!isLineEnd ·)
    | rest => rest
  match cs with
  | '\r' :: '\n' :: left => some left
  | c :: left => if isLineEnd c then some left else none
  | [] => some []

/-- What follows the line. -/
def skipLine (cs : List Char) : List Char :=
  match cs.dropWhile (!isLineEnd ·) with
  | _ :: rest => rest
  | [] => []

/-- A line, or where it stopped fitting. -/
def readLine (cs : List Char) : Except (List Char) (Option Binding × List Char) :=
  let cs := skipExport cs
  match readName cs with
  | none => .error cs
  | some (name, rest) =>
    let rest := skipInline rest
    let bound : Except (List Char) (Option String × List Char) := match rest with
      | '=' :: more =>
        let more := skipInline more
        match readValue more with
        | some (v, left) => .ok (some v, left)
        | none => .error more
      | rest => .ok (none, rest)
    match bound with
    | .error at' => .error at'
    | .ok (value, left) =>
      match endLine left with
      | some left => .ok (name.map (·, value), left)
      | none => .error left

/-- The bindings of a file in order; `fuel` bounds the number of lines. -/
def readLines : Nat → List Char → List Binding
  | 0, _ => []
  | fuel + 1, cs =>
    match cs.dropWhile isBlank with
    | [] => []
    | cs =>
      match readLine cs with
      | .ok (some b, left) => b :: readLines fuel left
      | .ok (none, left) => readLines fuel left
      | .error stopped => readLines fuel (skipLine stopped)

/-! ## References -/

/-- Replace references to other names; `fuel` bounds their number. -/
def expand (env : String → Option String) : Nat → List Char → List Char
  | 0, cs => cs
  | _, [] => []
  | fuel + 1, '$' :: '\x7b' :: rest =>
    let body := rest.takeWhile (· != '\x7d')
    let name := body.takeWhile (· != ':')
    let tail := body.drop name.length
    match rest.drop body.length, tail with
    | _ :: left, [] => value (String.ofList name) "" ++ expand env fuel left
    | _ :: left, ':' :: '-' :: other =>
      value (String.ofList name) (String.ofList other) ++ expand env fuel left
    | _, _ => '$' :: expand env fuel ('\x7b' :: rest)
  | fuel + 1, c :: rest => c :: expand env fuel rest
where
  value (name other : String) : List Char := ((env name).getD other).toList

/-- Set a binding; a name that is there keeps its place. -/
def setBinding (name : String) (value : Option String) : List Binding → List Binding
  | [] => [(name, value)]
  | (k, v) :: rest =>
    if k == name then (k, value) :: rest else (k, v) :: setBinding name value rest

/-- The bindings of a file, each name once, with references replaced by earlier bindings or by the
environment. -/
def bindings (env : String → Option String) (text : String) : List Binding :=
  let lines := readLines (text.length + 1) text.toList
  lines.foldl (fun done (name, value) ↦
    let look (n : String) : Option String :=
      match List.lookup n done with
      | some v => some (v.getD "")
      | none => env n
    let value := value.map fun v ↦ String.ofList (expand look (v.length + 1) v.toList)
    setBinding name value done) []

end QuantumRisk.Settings

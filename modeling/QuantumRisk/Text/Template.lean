import QuantumRisk.Ast.Fault

/-!
# Message templates

A template is a text with fields in braces; doubled braces stand for themselves. There is one value
to fill in, `name`. A field may pick a part of it, convert it, and say how it is laid out:
`name`, `name!r`, `name[0]`, `name:>12`, `name:<3.2`.

Filling goes from left to right and stops at the first fault, so a fault in an early field hides a
malformed end.
-/

namespace QuantumRisk.Text

/-- Why a template cannot be filled. -/
inductive TemplateFault where
  | strayOpen
  | strayClose
  | braceInName
  | unclosedField
  | unclosedLayout
  | noConversion
  | badConversion (c : Char)
  | noColon
  | emptyPart
  | textAfterPart
  /-- There is no value of this name. -/
  | unknownName (name : Json)
  /-- There are no values by position. -/
  | outOfRange (index : Nat)
  | noSuchItem (kind : String)
  | badItemKey (kind : String)
  | notSubscriptable (kind : String)
  | lacks (kind : String) (part : String)
  | tooManyDigits
  | tooDeep
  | badLayout (layout kind : String)
  | badCode (code : Char) (kind : String)
  | noPrecision
  | notForTexts (what : String)
  | noGrouping (mark : Char)
  | bothGroupings
  | precisionOfInteger
  | noLayout (kind : String)
  deriving Inhabited

namespace TemplateFault

def message : TemplateFault → String
  | .strayOpen => "Single '\x7b' encountered in format string"
  | .strayClose => "Single '\x7d' encountered in format string"
  | .braceInName => "unexpected '\x7b' in field name"
  | .unclosedField => "expected '\x7d' before end of string"
  | .unclosedLayout => "unmatched '\x7b' in format spec"
  | .noConversion => "end of string while looking for conversion specifier"
  | .badConversion c => "Unknown conversion specifier " ++ c.toString
  | .noColon => "expected ':' after conversion specifier"
  | .emptyPart => "Empty attribute in format string"
  | .textAfterPart => "Only '.' or '[' may follow ']' in format field specifier"
  | .unknownName name => name.literal
  | .outOfRange i =>
    "Replacement index " ++ toString i ++ " out of range for positional args tuple"
  | .noSuchItem "str" => "string index out of range"
  | .noSuchItem _ => "list index out of range"
  | .badItemKey "str" => "string indices must be integers, not 'str'"
  | .badItemKey _ => "list indices must be integers or slices, not str"
  | .notSubscriptable kind => quoted kind ++ " object is not subscriptable"
  | .lacks kind part => quoted kind ++ " object has no attribute " ++ quoted part
  | .tooManyDigits => "Too many decimal digits in format string"
  | .tooDeep => "Max string recursion exceeded"
  | .badLayout layout kind =>
    "Invalid format specifier " ++ "'" ++ layout ++ "' for object of type " ++ quoted kind
  | .badCode code kind =>
    "Unknown format code '" ++ code.toString ++ "' for object of type " ++ quoted kind
  | .noPrecision => "Format specifier missing precision"
  | .notForTexts what => what ++ " not allowed in string format specifier"
  | .noGrouping mark => "Cannot specify '" ++ mark.toString ++ "' with 's'."
  | .bothGroupings => "Cannot specify both ',' and '_'."
  | .precisionOfInteger => "Precision not allowed in integer format specifier"
  | .noLayout kind => "unsupported format string passed to " ++ kind ++ ".__format__"

end TemplateFault

/-! ## Layouts -/

/-- How a value is laid out in a field. -/
structure FieldLayout where
  fill : Char := ' '
  align : Option Char := none
  sign : Option Char := none
  zeroSign : Bool := false
  alternate : Bool := false
  zeroFill : Bool := false
  width : Option Nat := none
  grouping : Option Char := none
  precision : Option Nat := none
  code : Option Char := none

private def isAlign (c : Char) : Bool := c == '<' || c == '>' || c == '=' || c == '^'

/-- A number at the start of a layout. -/
private def takeNumber (cs : List Char) : Except TemplateFault (Option Nat × List Char) :=
  let ds := cs.takeWhile fun c ↦ (digitValue c).isSome
  if ds.isEmpty then .ok (none, cs)
  else
    let n := ofDigits (ds.filterMap digitValue)
    if n > 9223372036854775807 then .error .tooManyDigits else .ok (some n, cs.drop ds.length)

/-- Read a layout for a value of this kind. -/
def readLayout (kind : String) (spec : List Char) : Except TemplateFault FieldLayout := do
  let (l, cs) : FieldLayout × List Char := match spec with
    | f :: a :: rest =>
      if isAlign a then ({ fill := f, align := some a }, rest)
      else if isAlign f then ({ align := some f }, a :: rest)
      else ({}, spec)
    | [a] => if isAlign a then ({ align := some a }, []) else ({}, spec)
    | [] => ({}, [])
  let filled := match spec with
    | _ :: a :: _ => isAlign a
    | _ => false
  let (l, cs) := match cs with
    | c :: rest =>
      if c == ' ' || c == '+' || c == '-' then ({ l with sign := some c }, rest) else (l, cs)
    | [] => (l, cs)
  let (l, cs) := match cs with
    | 'z' :: rest => ({ l with zeroSign := true }, rest)
    | _ => (l, cs)
  let (l, cs) := match cs with
    | '#' :: rest => ({ l with alternate := true }, rest)
    | _ => (l, cs)
  let (l, cs) := match cs with
    | '0' :: rest =>
      if filled then (l, cs)
      else ({ l with fill := '0', zeroFill := l.align.isNone }, rest)
    | _ => (l, cs)
  let (width, cs) ← takeNumber cs
  let l := { l with width }
  let (l, cs) := match cs with
    | ',' :: rest => ({ l with grouping := some ',' }, rest)
    | _ => (l, cs)
  let (l, cs) ← match cs with
    | '_' :: rest =>
      if l.grouping.isSome then .error .bothGroupings
      else .ok ({ l with grouping := some '_' }, rest)
    | _ => .ok (l, cs)
  if cs.head? == some ',' && l.grouping == some '_' then .error .bothGroupings
  let (l, cs) ← match cs with
    | '.' :: rest => do
      match ← takeNumber rest with
      | (some n, rest) => .ok ({ l with precision := some n }, rest)
      | (none, _) => .error .noPrecision
    | _ => .ok (l, cs)
  match cs with
  | [] => .ok l
  | [c] => .ok { l with code := some c }
  | _ => .error (.badLayout (String.ofList spec) kind)

/-- Pad a text to the width of a layout. -/
def pad (l : FieldLayout) (standard : Char) (cs : List Char) : List Char :=
  let total := max (l.width.getD 0) cs.length
  let room := total - cs.length
  let left := match l.align.getD standard with
    | '>' => room
    | '^' => room / 2
    | _ => 0
  List.replicate left l.fill ++ cs ++ List.replicate (room - left) l.fill

/-- Lay out a text. -/
def layoutText (l : FieldLayout) (s : String) : Except TemplateFault String := do
  if let (some g, none) := (l.grouping, l.code) then .error (.noGrouping g)
  if let (some g, some 's') := (l.grouping, l.code) then .error (.noGrouping g)
  if let some c := l.code then
    if c != 's' then .error (.badCode c "str")
  if l.sign == some ' ' then .error (.notForTexts "Space")
  if l.sign.isSome then .error (.notForTexts "Sign")
  if l.zeroSign then .error (.notForTexts "Negative zero coercion (z)")
  if l.alternate then .error (.notForTexts "Alternate form (#)")
  if l.align == some '=' then .error (.notForTexts "'=' alignment")
  let cs := match l.precision with
    | some n => s.toList.take n
    | none => s.toList
  return String.ofList (pad l '<' cs)

/-- Lay out a whole number. -/
def layoutInteger (l : FieldLayout) (kind : String) (n : Int) : Except TemplateFault String := do
  if let some c := l.code then
    if c != 'd' then .error (.badCode c kind)
  if l.precision.isSome then .error .precisionOfInteger
  let sign := if n < 0 then ['-'] else match l.sign with
    | some '+' => ['+']
    | some ' ' => [' ']
    | _ => []
  let digits := (toString n.natAbs).toList
  if l.zeroFill || l.align == some '=' then
    let room := l.width.getD 0 - sign.length - digits.length
    return String.ofList (sign ++ List.replicate room l.fill ++ digits)
  else return String.ofList (pad l '>' (sign ++ digits))

/-- Lay out any value. -/
def layoutValue (spec : List Char) (v : Json) : Except TemplateFault String :=
  if spec.isEmpty then .ok v.display
  else
    match v with
    | .str s => do layoutText (← readLayout "str" spec) s
    | .int n => do layoutInteger (← readLayout "int" spec) "int" n
    | .bool b => do layoutInteger (← readLayout "bool" spec) "bool" (if b then 1 else 0)
    | .float x => do
      let l ← readLayout "float" spec
      match l.code with
      | some c => .error (.badCode c "float")
      | none => return String.ofList (pad l '>' x.text.toList)
    | v => .error (.noLayout v.kindName)

/-! ## Fields -/

/-- A field as written. -/
structure TemplateField where
  name : List Char
  conversion : Option Char
  layout : List Char

/-- The name of a field, the mark that ends it, and the rest. Braces may stand between square
brackets. -/
private def readName : List Char → Bool → Except TemplateFault (List Char × Char × List Char)
  | [], _ => .error .unclosedField
  | c :: rest, true => do
    let (name, mark, left) ← readName rest (c != ']')
    return (c :: name, mark, left)
  | c :: rest, false =>
    if c == '\x7b' then .error .braceInName
    else if c == '\x7d' || c == ':' || c == '!' then .ok ([], c, rest)
    else do
      let (name, mark, left) ← readName rest (c == '[')
      return (c :: name, mark, left)

/-- The layout of a field up to the brace that closes it. -/
private def readSpec : List Char → Nat → Except TemplateFault (List Char × List Char)
  | [], _ => .error .unclosedLayout
  | c :: rest, depth =>
    if c == '\x7d' && depth == 0 then .ok ([], rest)
    else do
      let depth := if c == '\x7b' then depth + 1 else if c == '\x7d' then depth - 1 else depth
      let (spec, left) ← readSpec rest depth
      return (c :: spec, left)

/-- Read a field behind its opening brace. -/
def readField (cs : List Char) : Except TemplateFault (TemplateField × List Char) := do
  let (name, mark, rest) ← readName cs false
  match mark with
  | '\x7d' => return (⟨name, none, []⟩, rest)
  | ':' =>
    let (spec, left) ← readSpec rest 0
    return (⟨name, none, spec⟩, left)
  | _ =>
    match rest with
    | [] => .error .noConversion
    | c :: '\x7d' :: left => return (⟨name, some c, []⟩, left)
    | c :: ':' :: rest =>
      let (spec, left) ← readSpec rest 0
      return (⟨name, some c, spec⟩, left)
    | [_] => .error .unclosedLayout
    | _ => .error .noColon

/-- A step into a value. -/
private inductive Part where
  | member (name : String)
  | item (key : String)

/-- The steps behind the first word of a field's name; `fuel` bounds their number. -/
private def readParts : Nat → List Char → Except TemplateFault (List Part)
  | 0, _ => .ok []
  | _, [] => .ok []
  | fuel + 1, '.' :: rest => do
    let word := rest.takeWhile fun c ↦ c != '.' && c != '['
    if word.isEmpty then .error .emptyPart
    return .member (String.ofList word) :: (← readParts fuel (rest.drop word.length))
  | fuel + 1, '[' :: rest => do
    let word := rest.takeWhile (· != ']')
    if word.isEmpty then .error .emptyPart
    return .item (String.ofList word) :: (← readParts fuel (rest.drop (word.length + 1)))
  | _, _ => .error .textAfterPart

/-- The number that a text of digits alone stands for. -/
private def indexOf? (s : String) : Option Nat :=
  let ds := s.toList.map digitValue
  if ds.isEmpty || ds.any Option.isNone then none else some (ofDigits (ds.filterMap id))

private def takePart (v : Json) : Part → Except TemplateFault Json
  | .member name => .error (.lacks v.kindName name)
  | .item key =>
    match v, indexOf? key with
    | .str s, some i => match s.toList[i]? with
      | some c => .ok (.str c.toString)
      | none => .error (.noSuchItem "str")
    | .str _, none => .error (.badItemKey "str")
    | .arr items, some i => match items[i]? with
      | some w => .ok w
      | none => .error (.noSuchItem "list")
    | .arr _, none => .error (.badItemKey "list")
    | .obj _, some i => .error (.unknownName (.int i))
    | .obj members, none => match Json.lookup key members with
      | some w => .ok w
      | none => .error (.unknownName (.str key))
    | v, _ => .error (.notSubscriptable v.kindName)

/-- The value that a field's name stands for. -/
def fieldValue (value : Json) (name : List Char) : Except TemplateFault Json := do
  let first := name.takeWhile fun c ↦ c != '.' && c != '['
  let parts ← readParts name.length (name.drop first.length)
  let word := String.ofList first
  if word == "" then .error (.outOfRange 0)
  match indexOf? word with
  | some i => .error (.outOfRange i)
  | none =>
    if word != "name" then .error (.unknownName (.str word))
    parts.foldlM takePart value

/-- A text in quotes with everything beyond ASCII escaped. -/
def quotedAscii (s : String) : String :=
  String.join (s.toList.map fun c ↦ if c.toNat < 0x80 then c.toString else numericEscape c)

private def convert (v : Json) : Char → Except TemplateFault Json
  | 'r' => .ok (.str v.literal)
  | 's' => .ok (.str v.display)
  | 'a' => .ok (.str (quotedAscii v.literal))
  | c => .error (.badConversion c)

/-! ## Templates -/

/-- Fill a template whose layouts are filled by `expand`. -/
private def fillWith (expand : List Char → Except TemplateFault String) (value : Json) :
    Nat → List Char → Except TemplateFault String
  | 0, _ => .ok ""
  | _, [] => .ok ""
  | fuel + 1, cs =>
    match cs with
    | [] => .ok ""
    | '\x7b' :: '\x7b' :: rest => do return "\x7b" ++ (← fillWith expand value fuel rest)
    | '\x7d' :: '\x7d' :: rest => do return "\x7d" ++ (← fillWith expand value fuel rest)
    | ['\x7b'] => .error .strayOpen
    | '\x7d' :: _ => .error .strayClose
    | '\x7b' :: rest => do
      let (field, left) ← readField rest
      let v ← fieldValue value field.name
      let v ← match field.conversion with
        | some c => convert v c
        | none => .ok v
      let spec ← if field.layout.contains '\x7b' then
          (expand field.layout).map (·.toList)
        else .ok field.layout
      let shown ← layoutValue spec v
      return shown ++ (← fillWith expand value fuel left)
    | c :: rest => do return c.toString ++ (← fillWith expand value fuel rest)

/-- Fill a template with a name. Layouts may hold fields, and these no further ones. -/
def fillTemplate (template : String) (name : Json) : Except TemplateFault String :=
  let deepest := fun (_ : List Char) ↦ (.error .tooDeep : Except TemplateFault String)
  let inner := fun (cs : List Char) ↦ fillWith deepest name (cs.length + 1) cs
  fillWith inner name (template.length + 1) template.toList

end QuantumRisk.Text

import QuantumRisk.Ast.Fault
import QuantumRisk.Json.Limits
import QuantumRisk.Number.Fixed

/-!
# Messages with percent signs

A log message is a text with places marked by percent signs, and values for them: `%s` shows a
value, `%r` quotes it, `%d` and its relatives write a whole number, `%f`, `%e` and `%g` a number in
double precision. Flags, a width and a precision may stand between. A single record may take the
place of the list of values; its members are then named in parentheses. A value that is beyond the
limits of what can be written cannot be shown.
-/

namespace QuantumRisk.Text

open Number (Binary64)

/-- Why a message cannot be filled in. -/
inductive PercentFault where
  | incomplete
  | incompleteKey
  | tooFew
  | tooMany
  | needsRecord
  | unknownKey (key : String)
  | badWidth
  | badCode (code : Char) (index : Nat)
  | notReal (code : Char) (kind : String)
  | notWhole (code : Char) (kind : String)
  | notNumber (kind : String)
  | notChar
  | charRange
  | infinite
  | notANumber
  | tooLarge
  | overrun (o : Overrun)
  deriving DecidableEq, Inhabited

/-- The words for a number with too many digits. -/
def tooManyDigits (limit : Nat) : String :=
  "Exceeds the limit (" ++ toString limit ++ " digits) for integer string conversion; "
    ++ "use sys.set_int_max_str_digits() to increase the limit"

namespace PercentFault

def message : PercentFault → String
  | .incomplete => "incomplete format"
  | .incompleteKey => "incomplete format key"
  | .tooFew => "not enough arguments for format string"
  | .tooMany => "not all arguments converted during string formatting"
  | .needsRecord => "format requires a mapping"
  | .unknownKey key => quoted key
  | .badWidth => "* wants int"
  | .badCode code index =>
    let shown := if 31 < code.toNat && code.toNat < 127 then code.toString else "?"
    "unsupported format character '" ++ shown ++ "' (0x" ++ hex 1 code.toNat ++ ") at index "
      ++ toString index
  | .notReal code kind =>
    "%" ++ code.toString ++ " format: a real number is required, not " ++ kind
  | .notWhole code kind =>
    "%" ++ code.toString ++ " format: an integer is required, not " ++ kind
  | .notNumber kind => "must be real number, not " ++ kind
  | .notChar => "%c requires int or char"
  | .charRange => "%c arg not in range(0x110000)"
  | .infinite => "cannot convert float infinity to integer"
  | .notANumber => "cannot convert float NaN to integer"
  | .tooLarge => "int too large to convert to float"
  | .overrun (.digits limit) => tooManyDigits limit
  | .overrun .nesting => "maximum recursion depth exceeded while getting the repr of an object"

end PercentFault

/-- The values for a message. -/
inductive PercentArgs where
  | list (values : List Json)
  | record (members : List (String × Json))

/-- A place in a message. -/
structure PercentSpec where
  left : Bool := false
  plus : Bool := false
  blank : Bool := false
  alternate : Bool := false
  zero : Bool := false
  width : Nat := 0
  precision : Option Nat := none

/-- What is left to be used: values by position, or the record as a whole. -/
private structure Supply where
  values : List Json
  record : Option (List (String × Json))

private def Supply.next (s : Supply) : Except PercentFault (Json × Supply) :=
  match s.values with
  | v :: vs => .ok (v, { s with values := vs })
  | [] => .error .tooFew

/-- Pad a shown value; zeros go between the sign and the digits. -/
private def padShown (spec : PercentSpec) (numeric : Bool) (sign digits : String) : String :=
  let room := spec.width - sign.length - digits.length
  let run (c : Char) : String := String.ofList (List.replicate room c)
  if spec.left then sign ++ digits ++ run ' '
  else if spec.zero && numeric then sign ++ run '0' ++ digits
  else run ' ' ++ sign ++ digits

private def signOf (spec : PercentSpec) (negative : Bool) : String :=
  if negative then "-" else if spec.plus then "+" else if spec.blank then " " else ""

/-- A text in a place. -/
private def showText (spec : PercentSpec) (s : String) : String :=
  let s := match spec.precision with
    | some n => String.ofList (s.toList.take n)
    | none => s
  padShown spec false "" s

/-- A whole number in a base. -/
private def showWhole (spec : PercentSpec) (code : Char) (n : Int) : String :=
  let (base, mark) := match code with
    | 'x' => (16, "0x")
    | 'X' => (16, "0X")
    | 'o' => (8, "0o")
    | _ => (10, "")
  let digits := String.ofList (Nat.toDigits base n.natAbs)
  let digits := if code == 'X' then digits.map Char.toUpper else digits
  let least := spec.precision.getD 0
  let digits := String.ofList (List.replicate (least - digits.length) '0') ++ digits
  padShown spec true (signOf spec (n < 0) ++ if spec.alternate then mark else "") digits

/-- A number in double precision. -/
private def showFloat (spec : PercentSpec) (code : Char) (x : Binary64) : String :=
  let capital := code.isUpper
  let fix (s : String) : String := if capital then s.map Char.toUpper else s
  match x with
  | .nan => padShown spec true (signOf spec false) (fix "nan")
  | .infinite negative => padShown spec true (signOf spec negative) (fix "inf")
  | .finite negative m e =>
    let n := spec.precision.getD 6
    let digits := match code.toLower with
      | 'f' => Binary64.fixedText m e n spec.alternate
      | 'e' => Binary64.exponentialText m e n spec.alternate
      | _ => Binary64.generalText m e n spec.alternate
    padShown spec true (signOf spec negative) (fix digits)

private def wholeOf (code : Char) (v : Json) : Except PercentFault Int :=
  let decimal := code == 'd' || code == 'i' || code == 'u'
  match v with
  | .int n => .ok n
  | .bool b => .ok (if b then 1 else 0)
  | .float x =>
    if decimal then
      match x with
      | .nan => .error .notANumber
      | .infinite _ => .error .infinite
      | x => .ok (x.truncate?.getD 0)
    else .error (.notWhole code "float")
  | v => .error (if decimal then .notReal code v.kindName else .notWhole code v.kindName)

private def floatOf (v : Json) : Except PercentFault Binary64 :=
  match v with
  | .float x => .ok x
  | .int n =>
    match Binary64.ofRatio (n < 0) n.natAbs 1 with
    | .infinite _ => .error .tooLarge
    | x => .ok x
  | .bool b => .ok (.ofRatio false (if b then 1 else 0) 1)
  | v => .error (.notNumber v.kindName)

private def charOf (v : Json) : Except PercentFault String :=
  match v with
  | .int n =>
    if 0 ≤ n && n < 0x110000 then .ok (Char.ofNat n.toNat).toString else .error .charRange
  | .bool b => .ok (Char.ofNat (if b then 1 else 0)).toString
  | .str s => if s.length == 1 then .ok s else .error .notChar
  | _ => .error .notChar

/-- Everything beyond ASCII escaped. -/
private def asciiOnly (s : String) : String :=
  String.join (s.toList.map fun c ↦ if c.toNat < 0x80 then c.toString else numericEscape c)

/-- A value that is within the limits. -/
private def within (limits : Limits) (v : Json) : Except PercentFault Json :=
  match v.overrun limits.digits limits.nesting with
  | some o => .error (.overrun o)
  | none => .ok v

/-- Show a value in a place with a code. -/
private def showValue (limits : Limits) (spec : PercentSpec) (code : Char) (index : Nat)
    (v : Json) :
    Except PercentFault String :=
  if code == 's' then (within limits v).map fun v ↦ showText spec v.display
  else if code == 'r' then (within limits v).map fun v ↦ showText spec v.literal
  else if code == 'a' then (within limits v).map fun v ↦ showText spec (asciiOnly v.literal)
  else if ['d', 'i', 'u'].contains code then do
    let n ← wholeOf code v
    let _ ← within limits (.int n)
    return showWhole spec code n
  else if ['x', 'X', 'o'].contains code then (wholeOf code v).map (showWhole spec code)
  else if ['f', 'F', 'e', 'E', 'g', 'G'].contains code then
    (floatOf v).map (showFloat spec code)
  else if code == 'c' then (charOf v).map (showText { spec with precision := none })
  else .error (.badCode code index)

/-- A key in parentheses, which may nest: the key and the rest. -/
private def readKey : List Char → Nat → Except PercentFault (List Char × List Char)
  | [], _ => .error .incompleteKey
  | c :: rest, depth =>
    if c == ')' && depth == 0 then .ok ([], rest)
    else do
      let depth := if c == '(' then depth + 1 else if c == ')' then depth - 1 else depth
      let (key, left) ← readKey rest depth
      return (c :: key, left)

private def readFlags (spec : PercentSpec) : List Char → PercentSpec × List Char
  | '-' :: rest => readFlags { spec with left := true } rest
  | '+' :: rest => readFlags { spec with plus := true } rest
  | ' ' :: rest => readFlags { spec with blank := true } rest
  | '#' :: rest => readFlags { spec with alternate := true } rest
  | '0' :: rest => readFlags { spec with zero := true } rest
  | cs => (spec, cs)

/-- A number, written out or taken from the values. -/
private def readAmount (cs : List Char) (supply : Supply) :
    Except PercentFault (Option Int × List Char × Supply) :=
  match cs with
  | '*' :: rest => do
    match ← supply.next with
    | (.int n, supply) => return (some n, rest, supply)
    | (.bool b, supply) => return (some (if b then 1 else 0), rest, supply)
    | _ => .error .badWidth
  | cs =>
    let ds := cs.takeWhile Char.isDigit
    if ds.isEmpty then .ok (none, cs, supply)
    else .ok (some (ofDigits (ds.filterMap digitValue)), cs.drop ds.length, supply)

/-- Fill in the places from left to right; `total` is the length of the whole message. -/
private def fillPlaces (limits : Limits) (total : Nat) :
    Nat → List Char → Supply → Except PercentFault (String × Supply)
  | 0, _, supply => .ok ("", supply)
  | _, [], supply => .ok ("", supply)
  | fuel + 1, '%' :: '%' :: rest, supply => do
    let (s, supply) ← fillPlaces limits total fuel rest supply
    return ("%" ++ s, supply)
  | fuel + 1, '%' :: rest, supply => do
    let (rest, supply) ← match rest with
      | '(' :: inner => do
        match supply.record with
        | none => .error .needsRecord
        | some members =>
          let (key, left) ← readKey inner 0
          match Json.lookup (String.ofList key) members with
          | some v => .ok (left, { supply with values := [v] })
          | none => .error (.unknownKey (String.ofList key))
      | rest => .ok (rest, supply)
    let (spec, rest) := readFlags {} rest
    let (width, rest, supply) ← readAmount rest supply
    let spec := match width with
      | some n => { spec with width := n.natAbs, left := spec.left || n < 0 }
      | none => spec
    let (spec, rest, supply) ← match rest with
      | '.' :: rest => do
        let (amount, rest, supply) ← readAmount rest supply
        .ok ({ spec with precision := some (amount.getD 0).toNat }, rest, supply)
      | rest => .ok (spec, rest, supply)
    let rest := match rest with
      | c :: left => if c == 'h' || c == 'l' || c == 'L' then left else rest
      | [] => rest
    match rest with
    | [] => .error .incomplete
    | code :: left =>
      let (v, supply) ← supply.next
      let shown ← showValue limits spec code (total - left.length - 1) v
      let (s, supply) ← fillPlaces limits total fuel left supply
      return (shown ++ s, supply)
  | fuel + 1, c :: rest, supply => do
    let (s, supply) ← fillPlaces limits total fuel rest supply
    return (c.toString ++ s, supply)

/-- Fill in a message. All values of a list have to be used. -/
def fillPercent (message : String) (args : PercentArgs) (limits : Limits := .standard) :
    Except PercentFault String := do
  let cs := message.toList
  match args with
  | .list values =>
    let (s, left) ← fillPlaces limits cs.length (cs.length + 1) cs ⟨values, none⟩
    if left.values.isEmpty then return s else .error .tooMany
  | .record members =>
    let (s, _) ← fillPlaces limits cs.length (cs.length + 1) cs ⟨[.obj members], some members⟩
    return s

end QuantumRisk.Text

import QuantumRisk.Json.Display
import QuantumRisk.Text.Integer

/-!
# Validation of values from outside

Values from files, the environment and callers are taken leniently: a number may be written as text,
a switch as a word. What cannot be taken is rejected with an issue for each field at fault.
-/

namespace QuantumRisk.Validation

open Number (Binary64)

/-- Where a value comes from; a few messages differ. -/
inductive Origin where
  | memory
  | text
  deriving DecidableEq

/-- What is wrong with a value. -/
inductive Issue where
  | notInteger
  | notIntegerText
  | hasFraction
  | notFinite
  | tooLarge
  | below (bound : Int)
  | above (bound : Int)
  | notSwitch
  | notSwitchText
  | notText
  | required
  | notList (origin : Origin)
  | notRecord
  | notModel (origin : Origin) (model : String)
  | notChoice (choices : List String)
  | notKind (choices : List String)
  | refused (reason : String)
  | frozen
  | unexpected
  /-- The text is not JSON; this issue has no message of its own. -/
  | notJson
  deriving Inhabited

/-- Choices in quotes, the last two with `or` between them. -/
def listChoices : List String → String
  | [] => ""
  | [a] => Text.quoted a
  | [a, b] => Text.quoted a ++ " or " ++ Text.quoted b
  | a :: rest => Text.quoted a ++ ", " ++ listChoices rest

namespace Issue

def code : Issue → String
  | .notInteger => "int_type"
  | .notIntegerText => "int_parsing"
  | .hasFraction => "int_from_float"
  | .notFinite => "finite_number"
  | .tooLarge => "int_parsing_size"
  | .below _ => "greater_than_equal"
  | .above _ => "less_than_equal"
  | .notSwitch => "bool_type"
  | .notSwitchText => "bool_parsing"
  | .notText => "string_type"
  | .required => "missing"
  | .notList _ => "list_type"
  | .notRecord => "dict_type"
  | .notModel _ _ => "model_type"
  | .notChoice _ => "literal_error"
  | .notKind _ => "enum"
  | .refused _ => "value_error"
  | .frozen => "frozen_instance"
  | .unexpected => "extra_forbidden"
  | .notJson => "json_invalid"

def message : Issue → Option String
  | .notInteger => some "Input should be a valid integer"
  | .notIntegerText =>
    some "Input should be a valid integer, unable to parse string as an integer"
  | .hasFraction =>
    some "Input should be a valid integer, got a number with a fractional part"
  | .notFinite => some "Input should be a finite number"
  | .tooLarge => some "Unable to parse input string as an integer, exceeded maximum size"
  | .below bound => some ("Input should be greater than or equal to " ++ toString bound)
  | .above bound => some ("Input should be less than or equal to " ++ toString bound)
  | .notSwitch => some "Input should be a valid boolean"
  | .notSwitchText => some "Input should be a valid boolean, unable to interpret input"
  | .notText => some "Input should be a valid string"
  | .required => some "Field required"
  | .notList .memory => some "Input should be a valid list"
  | .notList .text => some "Input should be a valid array"
  | .notRecord => some "Input should be a valid dictionary"
  | .notModel .memory model => some ("Input should be a valid dictionary or instance of " ++ model)
  | .notModel .text _ => some "Input should be an object"
  | .notChoice choices => some ("Input should be " ++ listChoices choices)
  | .notKind choices => some ("Input should be " ++ listChoices choices)
  | .refused reason => some ("Value error, " ++ reason)
  | .frozen => some "Instance is frozen"
  | .unexpected => some "Extra inputs are not permitted"
  | .notJson => none

end Issue

/-- A step to the value at fault: a member or an item. -/
inductive Step where
  | member (name : String)
  | item (index : Nat)
  deriving DecidableEq, Inhabited

/-- An issue and the place of the value at fault. -/
structure Complaint where
  place : List Step
  issue : Issue
  deriving Inhabited

/-- The rejection of a record of a model. -/
structure Rejection where
  model : String
  complaints : List Complaint
  deriving Inhabited

/-! ## Single values -/

/-- The digits of an integer text: decimal digits with single underscores between them, and a point
followed by zeros alone. -/
private def wholeDigits (cs : List Char) : Option (List Nat) :=
  let isZeros := fun (ds : List Char) ↦ !ds.isEmpty && ds.all (· == '0')
  let whole := cs.takeWhile (· != '.')
  let tail := cs.drop whole.length
  if !whole.all (fun c ↦ c.isDigit || c == '_') then none
  else
    match tail with
    | [] => Text.digitRun whole
    | _ :: zeros => if isZeros zeros then Text.digitRun whole else none

/-- Read an integer from a text. -/
def integerOfText (s : String) : Except Issue Int :=
  let (negative, cs) := match Text.trimBy Text.isIntegerBlank s.toList with
    | '-' :: rest => (true, rest)
    | '+' :: rest => (false, rest)
    | rest => (false, rest)
  match wholeDigits cs with
  | none => .error .notIntegerText
  | some ds =>
    if ds.length > Text.digitLimit then .error .tooLarge
    else
      let n : Int := Text.ofDigits ds
      .ok (if negative then -n else n)

/-- The whole number of a number in double precision, within 64 bits. -/
def integerOfFloat : Binary64 → Except Issue Int
  | .infinite _ => .error .notFinite
  | .nan => .error .notFinite
  | x =>
    match x.toInt? with
    | none => .error .hasFraction
    | some n => if n.natAbs < Nat.pow 2 63 then .ok n else .error .tooLarge

def integer : Json → Except Issue Int
  | .int n => .ok n
  | .bool b => .ok (if b then 1 else 0)
  | .float x => integerOfFloat x
  | .str s => integerOfText s
  | _ => .error .notInteger

/-- An integer within bounds. -/
def integerWithin (low high : Option Int) (v : Json) : Except Issue Int := do
  let n ← integer v
  if let some l := low then
    if n < l then .error (.below l)
  if let some h := high then
    if n > h then .error (.above h)
  return n

private def trueWords : List String := ["1", "on", "t", "true", "y", "yes"]

private def falseWords : List String := ["0", "off", "f", "false", "n", "no"]

private def switchOfInt (n : Int) : Except Issue Bool :=
  if n = 0 then .ok false else if n = 1 then .ok true else .error .notSwitchText

def switch : Json → Except Issue Bool
  | .bool b => .ok b
  | .int n => if n.natAbs < Nat.pow 2 63 then switchOfInt n else .error .notSwitch
  | .float x =>
    match integerOfFloat x with
    | .ok n => switchOfInt n
    | .error _ => .error .notSwitch
  | .str s =>
    let word := s.map Char.toLower
    if trueWords.contains word then .ok true
    else if falseWords.contains word then .ok false
    else .error .notSwitchText
  | _ => .error .notSwitch

def text : Json → Except Issue String
  | .str s => .ok s
  | _ => .error .notText

/-- One of a few texts. -/
def choice (choices : List String) : Json → Except Issue String
  | .str s => if choices.contains s then .ok s else .error (.notChoice choices)
  | _ => .error (.notChoice choices)

/-! ## Collecting -/

/-- The complaint about a value at a place, if it is at fault. -/
def complaintAt (place : List Step) {α : Type} : Except Issue α → List Complaint
  | .ok _ => []
  | .error issue => [⟨place, issue⟩]

/-- The items of a list of texts, or the complaints about it. -/
def textItems (origin : Origin) (place : List Step) : Json → Except (List Complaint) (List String)
  | .arr items =>
    let complaints := (items.mapIdx fun i v ↦ complaintAt (place ++ [.item i]) (text v)).flatten
    if complaints.isEmpty then
      .ok (items.filterMap fun
        | .str s => some s
        | _ => none)
    else .error complaints
  | _ => .error [⟨place, .notList origin⟩]

end QuantumRisk.Validation

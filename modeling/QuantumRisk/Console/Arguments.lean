import QuantumRisk.Console.Form
import QuantumRisk.Text.Integer
import QuantumRisk.Text.Quoted

/-!
# Command lines

A command line is read from left to right. An argument that begins with a dash is an option; long
names may be cut short as long as they stay unambiguous, short names may be run together, and a
value may be attached to its option or follow it. A number with a minus sign and anything with a
blank in it are words. Behind a double dash everything is a word.

Options take effect in order, so the first mistake is the one that is reported, and a request for
help counts only if there was none before it. Arguments that nothing takes are reported at the end.
-/

namespace QuantumRisk.Console

/-! ## What a command line asks for -/

inductive Format where
  | summary
  | json
  deriving DecidableEq, Inhabited, Repr

inductive Selection where
  | latest
  | list
  deriving DecidableEq, Inhabited, Repr

inductive Command where
  | scan (path reportDir : Option String) (format : Format)
  | report (which : Selection) (reportDir : Option String)
  | summary (reportDir : Option String)
  | config
  | serve (host : Option String) (port : Option Int)
  deriving DecidableEq, Inhabited, Repr

structure Arguments where
  version : Bool := false
  noBanner : Bool := false
  quiet : Bool := false
  command : Option Command := none
  deriving DecidableEq, Inhabited, Repr

/-- Why a command line is not carried out. -/
inductive Stop where
  /-- Help was asked for. -/
  | help (form : Form)
  | misuse (form : Form) (message : String)
  deriving Inhabited

namespace Stop

def stdout : Stop → String
  | .help form => form.help
  | .misuse _ _ => ""

def stderr : Stop → String
  | .help _ => ""
  | .misuse form message => form.usage ++ form.program ++ ": error: " ++ message ++ "\n"

def code : Stop → Nat
  | .help _ => 0
  | .misuse _ _ => 2

end Stop

/-! ## Single arguments -/

/-- What an argument is. -/
inductive Mark where
  /-- The double dash. -/
  | dashes
  | word
  /-- An option, if the form has it, under a name. A value may be attached; `spaced` says whether an
  equals sign stands before it. -/
  | option (flag : Option Flag) (name : String) (attached : Option String) (spaced : Bool)

def Mark.isOption : Mark → Bool
  | .option _ _ _ _ => true
  | _ => false

/-- Is this a number with a minus sign? A line feed at the end does not matter. -/
def isNegativeNumber (cs : List Char) : Bool :=
  let isDigits := fun (ds : List Char) ↦ !ds.isEmpty && ds.all fun c ↦ (Text.digitValue c).isSome
  let cs := if cs.getLast? = some '\n' then cs.dropLast else cs
  match cs with
  | '-' :: body =>
    let whole := body.takeWhile (· ≠ '.')
    match body.drop whole.length with
    | [] => isDigits whole
    | _ :: fraction => (whole.isEmpty || isDigits whole) && isDigits fraction
  | _ => false

/-- A text up to the first equals sign, and what follows it. -/
def splitEquals (cs : List Char) : List Char × Option (List Char) :=
  let front := cs.takeWhile (· ≠ '=')
  match cs.drop front.length with
  | [] => (front, none)
  | _ :: back => (front, some back)

/-- The options that an argument may mean if no option has its exact name. -/
def Form.candidates (f : Form) (cs : List Char) : List (String × Flag × Option String × Bool) :=
  match cs with
  | '-' :: '-' :: _ =>
    let (front, back) := splitEquals cs
    (f.names.filter fun (name, _) ↦ front.isPrefixOf name.toList).map fun (name, flag) ↦
      (name, flag, back.map String.ofList, back.isSome)
  | _ =>
    f.names.filterMap fun (name, flag) ↦
      if name.toList = cs.take 2 then some (name, flag, some (String.ofList (cs.drop 2)), false)
      else if cs.isPrefixOf name.toList then some (name, flag, none, false)
      else none

/-- What an argument is to a form. -/
def Form.mark (f : Form) (s : String) : Except Stop Mark :=
  let cs := s.toList
  match cs with
  | '-' :: _ :: _ =>
    match List.lookup s f.names with
    | some flag => .ok (.option (some flag) s none false)
    | none =>
      let (front, back) := splitEquals cs
      match back, List.lookup (String.ofList front) f.names with
      | some value, some flag =>
        .ok (.option (some flag) (String.ofList front) (some (String.ofList value)) true)
      | _, _ =>
        match f.candidates cs with
        | [(name, flag, attached, spaced)] => .ok (.option (some flag) name attached spaced)
        | [] =>
          if isNegativeNumber cs || cs.contains ' ' then .ok .word
          else .ok (.option none s none false)
        | several =>
          .error (.misuse f ("ambiguous option: " ++ s ++ " could match "
            ++ String.intercalate ", " (several.map (·.1))))
  | _ => .ok .word

/-- What the arguments are; behind a double dash all are words. -/
def Form.marks (f : Form) : List String → Except Stop (List (String × Mark))
  | [] => .ok []
  | "--" :: rest => .ok (("--", .dashes) :: rest.map (·, .word))
  | s :: rest => do return (s, ← f.mark s) :: (← f.marks rest)

/-! ## Options -/

/-- What has been read so far. -/
structure Progress where
  /-- Options in order, with their values. -/
  given : List (Key × String) := []
  /-- The words of the operand, once it has been read. -/
  operand : Option (List String) := none
  /-- Arguments that nothing takes. -/
  extras : List String := []

/-- The complaint about an option or operand. -/
def Form.complain (f : Form) (title message : String) : Stop :=
  .misuse f ("argument " ++ title ++ ": " ++ message)

def invalidChoice (value : String) (choices : List String) : String :=
  "invalid choice: " ++ Text.quoted value ++ " (choose from "
    ++ String.intercalate ", " (choices.map Text.quoted) ++ ")"

/-- Let an option take effect. -/
def Form.take (f : Form) (p : Progress) (flag : Flag) (value : String) : Except Stop Progress :=
  match flag.key with
  | .help => .error (.help f)
  | .format =>
    if formats.contains value then .ok { p with given := p.given ++ [(flag.key, value)] }
    else .error (f.complain flag.title (invalidChoice value formats))
  | .port =>
    match Text.readInteger value with
    | .ok _ => .ok { p with given := p.given ++ [(flag.key, value)] }
    | .error _ => .error (f.complain flag.title ("invalid int value: " ++ Text.quoted value))
  | key => .ok { p with given := p.given ++ [(key, value)] }

/-- The options of one argument. -/
structure Cluster where
  /-- Options with their values. -/
  taken : List (Flag × String)
  /-- The part of the argument that nothing takes. -/
  extra : Option String := none
  /-- Whether the next argument is the value of the last option. -/
  usesNext : Bool := false

def ignoredValue (value : String) : String :=
  "ignored explicit argument " ++ Text.quoted value

/-- Split options that are run together in one argument. `next` is the argument behind it, if that
is a word; `fuel` bounds the number of options. -/
def Form.cluster (f : Form) (next : Option String) :
    Nat → Flag → String → Option String → Bool → Except Stop Cluster
  | 0, _, _, _, _ => .ok ⟨[], none, false⟩
  | _, flag, _, none, _ =>
    if flag.takesValue then
      match next with
      | some value => .ok ⟨[(flag, value)], none, true⟩
      | none => .error (f.complain flag.title "expected one argument")
    else .ok ⟨[(flag, "")], none, false⟩
  | fuel + 1, flag, name, some value, spaced =>
    if flag.takesValue then .ok ⟨[(flag, value)], none, false⟩
    else
      match name.toList, value.toList with
      | '-' :: n :: _, c :: tail =>
        if n = '-' || spaced || c = '-' then .error (f.complain flag.title (ignoredValue value))
        else
          match List.lookup (String.ofList ['-', c]) f.names with
          | none => .ok ⟨[(flag, "")], some ("-" ++ value), false⟩
          | some other => do
            let (attached, spaced) : Option String × Bool := match tail with
              | [] => (none, false)
              | '=' :: rest => (some (String.ofList rest), true)
              | rest => (some (String.ofList rest), false)
            let more ← f.cluster next fuel other (String.ofList ['-', c]) attached spaced
            return { more with taken := (flag, "") :: more.taken }
      | _, _ => .error (f.complain flag.title (ignoredValue value))

/-! ## Operands -/

/-- How many arguments an operand takes at this point, if it can be read here. -/
def Operand.extent (o : Operand) (marks : List Mark) : Option Nat :=
  let isDashes : Mark → Bool := fun
    | .dashes => true
    | _ => false
  let before := (marks.takeWhile isDashes).length
  let hasWord := match marks.drop before with
    | .word :: _ => true
    | _ => false
  let words := if hasWord then 1 else 0
  let behind := ((marks.drop (before + words)).takeWhile isDashes).length
  match o with
  | .absent => none
  | .path => some (before + words + behind)
  | .which => if hasWord then some (before + words + behind) else none
  | .command => if hasWord then some marks.length else none

/-- Let the operand take effect. -/
def Form.takeOperand (f : Form) (p : Progress) (words : List String) : Except Stop Progress :=
  match f.operand with
  | .which =>
    match words.erase "--" with
    | [w] =>
      if selections.contains w then .ok { p with operand := some [w] }
      else .error (f.complain "which" (invalidChoice w selections))
    | words => .ok { p with operand := some words }
  | .command =>
    match words with
    | name :: _ =>
      if commands.contains name then .ok { p with operand := some words }
      else .error (f.complain "command" (invalidChoice name commands))
    | [] => .ok { p with operand := some words }
  | _ => .ok { p with operand := some (words.erase "--") }

/-- Read the operand here if it is due, and return what follows. -/
def Form.operandHere (f : Form) (p : Progress) (args : List (String × Mark)) :
    Except Stop (Progress × List (String × Mark)) :=
  match p.operand with
  | some _ => .ok (p, args)
  | none =>
    match f.operand.extent (args.map (·.2)) with
    | none => .ok (p, args)
    | some n => do return (← f.takeOperand p ((args.take n).map (·.1)), args.drop n)

/-! ## Whole command lines -/

/-- Read the arguments from left to right; `fuel` bounds their number. -/
def Form.readFrom (f : Form) : Nat → Progress → List (String × Mark) → Except Stop Progress
  | 0, p, _ => .ok p
  | fuel + 1, p, args =>
    if args.any (·.2.isOption) then
      match args with
      | (s, .option flag name attached spaced) :: rest =>
        match flag with
        | none => f.readFrom fuel { p with extras := p.extras ++ [s] } rest
        | some flag => do
          let next := match rest with
            | (w, .word) :: _ => some w
            | _ => none
          let cluster ← f.cluster next (s.length + 1) flag name attached spaced
          let p := { p with extras := p.extras ++ cluster.extra.toList }
          let p ← cluster.taken.foldlM (fun p (flag, value) ↦ f.take p flag value) p
          f.readFrom fuel p (if cluster.usesNext then rest.drop 1 else rest)
      | args => do
        let (p, rest) ← f.operandHere p args
        if rest.length < args.length then f.readFrom fuel p rest
        else
          let skipped := args.takeWhile fun a ↦ !a.2.isOption
          f.readFrom fuel { p with extras := p.extras ++ skipped.map (·.1) }
            (args.drop skipped.length)
    else do
      let (p, rest) ← f.operandHere p args
      return { p with extras := p.extras ++ rest.map (·.1) }

/-- Read a command line by a form. -/
def Form.read (f : Form) (args : List String) : Except Stop Progress := do
  let marked ← f.marks args
  let p ← f.readFrom (2 * args.length + 2) {} marked
  if f.operand = .which && p.operand.isNone then
    .error (.misuse f "the following arguments are required: which")
  else return p

namespace Progress

/-- Was an option given? -/
def has (p : Progress) (key : Key) : Bool := p.given.any (·.1 = key)

/-- The value that was given last for an option. -/
def value? (p : Progress) (key : Key) : Option String :=
  (p.given.reverse.find? (·.1 = key)).map (·.2)

end Progress

/-- The command of a name with what was read for it. -/
def commandOf (name : String) (p : Progress) : Command :=
  let word := p.operand.bind (·.head?)
  match name with
  | "scan" =>
    .scan word (p.value? .reportDir) (if p.value? .format = some "json" then .json else .summary)
  | "report" =>
    .report (if word = some "list" then .list else .latest) (p.value? .reportDir)
  | "summary" => .summary (p.value? .reportDir)
  | "serve" =>
    .serve (p.value? .host) ((p.value? .port).bind fun s ↦ (Text.readInteger s).toOption)
  | _ => .config

def formOf : String → Form
  | "scan" => scanForm
  | "report" => reportForm
  | "summary" => summaryForm
  | "serve" => serveForm
  | _ => configForm

/-- Read the command line of the program. -/
def readArguments (args : List String) : Except Stop Arguments := do
  let p ← mainForm.read args
  let base : Arguments :=
    { version := p.has .version, noBanner := p.has .noBanner, quiet := p.has .quiet }
  let (result, extras) ← match p.operand with
    | some (name :: rest) => do
      let q ← (formOf name).read rest
      pure ({ base with quiet := base.quiet || q.has .quiet
                        command := some (commandOf name q) }, p.extras ++ q.extras)
    | _ => pure (base, p.extras)
  if extras.isEmpty then return result
  else .error (.misuse mainForm ("unrecognized arguments: " ++ String.intercalate " " extras))

end QuantumRisk.Console

import QuantumRisk.Text.Blank

/-!
# Integers written as text

An integer is written with an optional sign and decimal digits of any script; single underscores may
stand between digits, and blanks around the whole are ignored.
-/

namespace QuantumRisk.Text

/-- The zeros of the decimal digits beyond ASCII; the other nine digits of a script follow its
zero. -/
def foreignZeros : List Nat := [
  0x660, 0x6f0, 0x7c0, 0x966, 0x9e6, 0xa66, 0xae6, 0xb66, 0xbe6, 0xc66, 0xce6, 0xd66, 0xde6, 0xe50,
  0xed0, 0xf20, 0x1040, 0x1090, 0x17e0, 0x1810, 0x1946, 0x19d0, 0x1a80, 0x1a90, 0x1b50, 0x1bb0,
  0x1c40, 0x1c50, 0xa620, 0xa8d0, 0xa900, 0xa9d0, 0xa9f0, 0xaa50, 0xabf0, 0xff10, 0x104a0, 0x10d30,
  0x11066, 0x110f0, 0x11136, 0x111d0, 0x112f0, 0x11450, 0x114d0, 0x11650, 0x116c0, 0x11730,
  0x118e0, 0x11950, 0x11c50, 0x11d50, 0x11da0, 0x16a60, 0x16ac0, 0x16b50, 0x1d7ce, 0x1d7d8,
  0x1d7e2, 0x1d7ec, 0x1d7f6, 0x1e140, 0x1e2f0, 0x1e950, 0x1fbf0]

/-- The value of a decimal digit of any script. -/
def digitValue (c : Char) : Option Nat :=
  if c.isDigit then some (c.toNat - '0'.toNat)
  else if c.toNat < 0x80 then none
  else (foreignZeros.find? fun z ↦ z ≤ c.toNat && c.toNat < z + 10).map (c.toNat - ·)

/-- The values of digits with single underscores between them. -/
def digitRun : List Char → Option (List Nat)
  | [] => none
  | [c] => (digitValue c).map ([·])
  | c :: '_' :: rest => do
    let d ← digitValue c
    let ds ← digitRun rest
    return d :: ds
  | c :: rest => do
    let d ← digitValue c
    let ds ← digitRun rest
    return d :: ds

/-- A blank that may stand around an integer. -/
def isIntegerBlank (c : Char) : Bool := isBlank c && !(0x1c ≤ c.toNat && c.toNat ≤ 0x1f)

/-- Drop what satisfies `p` at both ends. -/
def trimBy (p : Char → Bool) (cs : List Char) : List Char :=
  ((cs.dropWhile p).reverse.dropWhile p).reverse

/-- The number written by decimal digits, the first the most significant. -/
def ofDigits (ds : List Nat) : Nat := ds.foldl (fun n d ↦ n * 10 + d) 0

/-- The sign and the digits of an integer text. -/
def integerParts (s : String) : Option (Bool × List Nat) :=
  match trimBy isIntegerBlank s.toList with
  | '-' :: rest => (digitRun rest).map (true, ·)
  | '+' :: rest => (digitRun rest).map (false, ·)
  | rest => (digitRun rest).map (false, ·)

/-- The most digits that are read. -/
def digitLimit : Nat := 4300

/-- Why a text is not read as an integer. -/
inductive IntegerFault where
  | malformed (text : String)
  | tooLong (digits : Nat)
  deriving DecidableEq, Repr

namespace IntegerFault

def message : IntegerFault → String
  | .malformed text => "invalid literal for int() with base 10: " ++ quoted text
  | .tooLong n => "Exceeds the limit (" ++ toString digitLimit
      ++ " digits) for integer string conversion: value has " ++ toString n
      ++ " digits; use sys.set_int_max_str_digits() to increase the limit"

end IntegerFault

/-- Read an integer. -/
def readInteger (s : String) : Except IntegerFault Int :=
  match integerParts s with
  | none => .error (.malformed s)
  | some (negative, ds) =>
    if ds.length > digitLimit then .error (.tooLong ds.length)
    else
      let n : Int := ofDigits ds
      .ok (if negative then -n else n)

end QuantumRisk.Text

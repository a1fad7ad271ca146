import QuantumRisk.Number.Shortest

/-!
# Numbers with a given number of digits

Three layouts of a number in double precision: with a given number of places behind the point, with
an exponent, and the shorter of both for a given number of significant digits. The value is rounded
exactly, a tie to the even digit.
-/

namespace QuantumRisk.Number

namespace Binary64

/-- The magnitude of a finite number times `10 ^ k`, rounded to a natural. -/
def scaledRound (m : Nat) (e : Int) (k : Int) : Nat :=
  let (num, den) := match e with
    | .ofNat j => (m <<< j, 1)
    | .negSucc j => (m, 1 <<< (j + 1))
  match k with
  | .ofNat j => roundQuotient (num * Nat.pow 10 j) den
  | .negSucc j => roundQuotient num (den * Nat.pow 10 (j + 1))

private def zeros (n : Nat) : String := String.ofList (List.replicate n '0')

/-- Put a point before the last `places` digits. -/
private def withPoint (digits : Nat) (places : Nat) (point : Bool) : String :=
  let s := toString digits
  let s := if s.length ≤ places then zeros (places + 1 - s.length) ++ s else s
  let cs := s.toList
  let whole := String.ofList (cs.take (cs.length - places))
  if places == 0 then (if point then whole ++ "." else whole)
  else whole ++ "." ++ String.ofList (cs.drop (cs.length - places))

/-- The magnitude with `places` digits behind the point. -/
def fixedText (m : Nat) (e : Int) (places : Nat) (point : Bool) : String :=
  withPoint (scaledRound m e places) places point

/-- The decimal exponent and the digits of the magnitude with `n` significant digits. -/
def significant (m : Nat) (e : Int) (n : Nat) : Nat × Int :=
  if m == 0 then (0, 0)
  else
    let x := Magnitude.scale ⟨m, e⟩ - 1
    let d := scaledRound m e (n - 1 - x)
    if d ≥ Nat.pow 10 n then (d / 10, x + 1) else (d, x)

private def exponentText (x : Int) : String :=
  let s := toString x.natAbs
  "e" ++ (if x < 0 then "-" else "+") ++ (if s.length < 2 then "0" ++ s else s)

/-- The magnitude with one digit before the point, `places` behind it, and an exponent. -/
def exponentialText (m : Nat) (e : Int) (places : Nat) (point : Bool) : String :=
  let (d, x) := significant m e (places + 1)
  withPoint d places point ++ exponentText x

/-- Drop zeros at the end of a fraction, and a point that is left at the end. -/
private def dropFractionZeros (s : String) : String :=
  if s.contains '.' then
    let cs := s.toList.reverse.dropWhile (· == '0')
    let cs := match cs with
      | '.' :: rest => rest
      | rest => rest
    String.ofList cs.reverse
  else s

/-- The magnitude with `n` significant digits, positionally if the exponent is small. -/
def generalText (m : Nat) (e : Int) (n : Nat) (keepZeros : Bool) : String :=
  let n := max n 1
  let (d, x) := significant m e n
  if -4 ≤ x && x < n then
    let places := (n - 1 - x : Int).toNat
    let s := withPoint (scaledRound m e places) places keepZeros
    if keepZeros then s else dropFractionZeros s
  else
    let s := withPoint d (n - 1) keepZeros
    (if keepZeros then s else dropFractionZeros s) ++ exponentText x

end Binary64

end QuantumRisk.Number

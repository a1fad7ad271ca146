import QuantumRisk.Number.Binary64

/-!
# The shortest decimal of a number

Of all decimals that are read back as the same number, the one with the fewest digits is written;
among several, the one nearest to the number. A decimal is read back as the number exactly if it
lies in the interval that reaches halfway to each neighbour, with the ends included when the
mantissa is even. The test compares cross products of naturals.
-/

namespace QuantumRisk.Number

/-- A positive number `mantissa · 2 ^ exponent` whose lower neighbour may be nearer than the upper
one. -/
structure Magnitude where
  mantissa : Nat
  exponent : Int
  deriving Inhabited

namespace Magnitude

/-- The number as a fraction with a factor of four to spare. -/
def ratio (x : Magnitude) (quarters : Nat) : Nat × Nat :=
  match x.exponent with
  | .ofNat k => (quarters <<< k, 4)
  | .negSucc k => (quarters, 4 <<< (k + 1))

/-- Twice the distance to the lower neighbour, in quarters: the gap is half as wide below a power of
two. -/
def lowerGap (x : Magnitude) : Nat :=
  if x.mantissa == 1 <<< 52 && x.exponent > Binary64.leastExponent then 1 else 2

/-- Is `digits · 10 ^ e` read back as `x`? -/
def readsBack (x : Magnitude) (digits : Nat) (e : Int) : Bool :=
  let (num, den) := match e with
    | .ofNat k => (digits * Nat.pow 10 k, 1)
    | .negSucc k => (digits, Nat.pow 10 (k + 1))
  let (lowN, lowD) := x.ratio (4 * x.mantissa - x.lowerGap)
  let (highN, highD) := x.ratio (4 * x.mantissa + 2)
  let closed := x.mantissa % 2 == 0
  let aboveLow := if closed then lowN * den ≤ num * lowD else lowN * den < num * lowD
  let belowHigh := if closed then num * highD ≤ highN * den else num * highD < highN * den
  aboveLow && belowHigh

/-- The number divided by `10 ^ e`, as a fraction. -/
def overTen (x : Magnitude) (e : Int) : Nat × Nat :=
  let (n, d) := x.ratio (4 * x.mantissa)
  match e with
  | .ofNat k => (n, d * Nat.pow 10 k)
  | .negSucc k => (n * Nat.pow 10 (k + 1), d)

/-- The least `k` with `x < 10 ^ k`, found from an estimate that is at most a little too low. -/
def scale (x : Magnitude) : Int :=
  let bits : Int := (x.mantissa.log2 : Int) + x.exponent
  let guess : Int := Int.fdiv (bits * 1233) 4096 - 1
  let ok := fun (k : Int) ↦ let (n, d) := x.overTen k; n < d
  ((List.range 6).map fun (i : Nat) ↦ guess + (i : Int)).find? ok |>.getD (guess + 6)

/-- The decimal with `n` digits nearest to `x` that is read back as `x`, if there is one. -/
def withDigits (x : Magnitude) (k : Int) (n : Nat) : Option (Nat × Int) :=
  let e := k - n
  let (num, den) := x.overTen e
  let low := num / den
  let lowHit := x.readsBack low e
  let highHit := x.readsBack (low + 1) e
  match lowHit, highHit with
  | true, true =>
    let twice := 2 * (num % den)
    if twice < den || (twice == den && low % 2 == 0) then some (low, e) else some (low + 1, e)
  | true, false => some (low, e)
  | false, true => some (low + 1, e)
  | false, false => none

/-- The shortest decimal: digits and a power of ten. -/
def shortest (x : Magnitude) : Nat × Int :=
  let k := x.scale
  ((List.range 17).findSome? fun i ↦ x.withDigits k (i + 1)).getD
    (match x.exponent with
      | .ofNat j => (x.mantissa <<< j, 0)
      | .negSucc j => (x.mantissa * Nat.pow 5 (j + 1), -((j : Int) + 1)))

end Magnitude

/-- Drop trailing zeros, at most `fuel` of them. -/
def dropZeros : Nat → Nat → Int → Nat × Int
  | 0, d, e => (d, e)
  | fuel + 1, d, e => if d != 0 && d % 10 == 0 then dropZeros fuel (d / 10) (e + 1) else (d, e)

namespace Binary64

/-- Lay out digits: positionally while the point stands at most sixteen places behind the first
digit and at most three zeros follow it, otherwise with a signed exponent of two digits at least. -/
def layout (digits : Nat) (e : Int) : String :=
  let text := toString digits
  let point : Int := e + text.length
  let cs := text.toList
  if -4 < point && point ≤ 16 then
    if point ≤ 0 then "0." ++ String.ofList (List.replicate (-point).toNat '0') ++ text
    else if point.toNat < cs.length then
      String.ofList (cs.take point.toNat) ++ "." ++ String.ofList (cs.drop point.toNat)
    else text ++ String.ofList (List.replicate (point.toNat - cs.length) '0') ++ ".0"
  else
    let exponent := point - 1
    let shown := toString exponent.natAbs
    let shown := if shown.length < 2 then "0" ++ shown else shown
    let sign := if exponent < 0 then "-" else "+"
    let rest := if cs.length > 1 then "." ++ String.ofList (cs.drop 1) else ""
    String.ofList (cs.take 1) ++ rest ++ "e" ++ sign ++ shown

/-- The text of a number. -/
def text : Binary64 → String
  | .nan => "nan"
  | .infinite negative => if negative then "-inf" else "inf"
  | .finite negative m e =>
    let sign := if negative then "-" else ""
    if m == 0 then sign ++ "0.0"
    else
      let (d, p) := Magnitude.shortest ⟨m, e⟩
      let (d, p) := dropZeros 400 d p
      sign ++ layout d p

end Binary64

end QuantumRisk.Number

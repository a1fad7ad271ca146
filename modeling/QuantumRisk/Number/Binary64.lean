/-!
# Numbers in double precision

A finite number is `± mantissa · 2 ^ exponent` with a mantissa below `2 ^ 53` and an exponent of at
least `-1074`; the mantissa is at least `2 ^ 52` unless the exponent is the least one. Every finite
number has exactly one such form. Quotients are rounded to the nearest number, a tie to the even
mantissa, by exact arithmetic on naturals.
-/

namespace QuantumRisk.Number

/-- A number in double precision. -/
inductive Binary64 where
  | finite (negative : Bool) (mantissa : Nat) (exponent : Int)
  | infinite (negative : Bool)
  | nan
  deriving DecidableEq, Inhabited, Repr

/-- The quotient rounded to the nearest natural, a tie to the even one. -/
def roundQuotient (num den : Nat) : Nat :=
  let q := num / den
  let twice := 2 * (num % den)
  if twice < den then q
  else if twice > den then q + 1
  else if q % 2 == 0 then q else q + 1

/-- `num · 2 ^ -e / den` as a fraction of naturals. -/
def scaleBy (num den : Nat) (e : Int) : Nat × Nat :=
  match e with
  | .ofNat k => (num, den <<< k)
  | .negSucc k => (num <<< (k + 1), den)

namespace Binary64

def leastExponent : Int := -1074

def greatestExponent : Int := 971

def zero : Binary64 := .finite false 0 leastExponent

/-- The exponent at which `num / den` has a mantissa of 53 bits, or the least exponent. -/
def exponentFor (num den : Nat) : Int :=
  let guess : Int := (num.log2 : Int) - (den.log2 : Int) - 52
  let (n, d) := scaleBy num den guess
  let e := if n < d <<< 52 then guess - 1 else guess
  max e leastExponent

/-- The number nearest to `± num / den`. -/
def ofRatio (negative : Bool) (num den : Nat) : Binary64 :=
  if num == 0 then .finite negative 0 leastExponent
  else
    let e := exponentFor num den
    let (n, d) := scaleBy num den e
    let m := roundQuotient n d
    let (m, e) := if m == 1 <<< 53 then (1 <<< 52, e + 1) else (m, e)
    if e > greatestExponent then .infinite negative else .finite negative m e

/-- The number nearest to `± digits · 10 ^ e`. Exponents far beyond the range give infinity or zero
without computing the power. -/
def ofDecimal (negative : Bool) (digits : Nat) (e : Int) : Binary64 :=
  if digits == 0 then .finite negative 0 leastExponent
  else
    let size : Int := (digits.log2 : Int) / 3 + 2
    if e + size < -400 then .finite negative 0 leastExponent
    else if e > 400 then .infinite negative
    else
      match e with
      | .ofNat k => ofRatio negative (digits * Nat.pow 10 k) 1
      | .negSucc k => ofRatio negative digits (Nat.pow 10 (k + 1))

/-- The quotient of two naturals, rounded once. -/
def quotient (num den : Nat) : Binary64 := ofRatio false num den

/-- Is this a finite number without a fraction? If so, which. -/
def toInt? : Binary64 → Option Int
  | .finite negative m e =>
    let signed := fun (n : Nat) ↦ if negative then -(n : Int) else (n : Int)
    match e with
    | .ofNat k => some (signed (m <<< k))
    | .negSucc k => if m % (1 <<< (k + 1)) == 0 then some (signed (m >>> (k + 1))) else none
  | _ => none

/-- The integer part, toward zero. -/
def truncate? : Binary64 → Option Int
  | .finite negative m e =>
    let n := match e with
      | .ofNat k => m <<< k
      | .negSucc k => m >>> (k + 1)
    some (if negative then -(n : Int) else (n : Int))
  | _ => none

def isZero : Binary64 → Bool
  | .finite _ m _ => m == 0
  | _ => false

end Binary64

end QuantumRisk.Number

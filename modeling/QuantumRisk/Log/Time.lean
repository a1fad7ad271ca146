/-!
# Times of day and dates

A time is a number of nanoseconds since the beginning of 1970 in universal time. The calendar is the
Gregorian one, extended to all years.
-/

namespace QuantumRisk.Log

/-- A moment split into its parts. -/
structure Moment where
  year : Int
  month : Nat
  day : Nat
  hour : Nat
  minute : Nat
  second : Nat
  microsecond : Nat
  deriving DecidableEq, Repr

/-- Year, month and day of a number of days since the beginning of 1970. Years are counted from
March, so that the leap day comes last, in eras of four hundred years. -/
def civil (days : Int) : Int × Nat × Nat :=
  let z := days + 719468
  let era := Int.fdiv z 146097
  let doe := (z - era * 146097).toNat
  let yoe := (doe - doe / 1460 + doe / 36524 - doe / 146096) / 365
  let doy := doe - (365 * yoe + yoe / 4 - yoe / 100)
  let mp := (5 * doy + 2) / 153
  let day := doy - (153 * mp + 2) / 5 + 1
  let month := if mp < 10 then mp + 3 else mp - 9
  let year := (yoe : Int) + era * 400 + (if month ≤ 2 then 1 else 0)
  (year, month, day)

/-- The parts of a time; fractions of a microsecond are cut off. -/
def Moment.ofNanos (ns : Int) : Moment :=
  let micros := Int.fdiv ns 1000
  let seconds := Int.fdiv micros 1000000
  let days := Int.fdiv seconds 86400
  let rest := (seconds - days * 86400).toNat
  let (year, month, day) := civil days
  { year, month, day, hour := rest / 3600, minute := rest / 60 % 60, second := rest % 60,
    microsecond := (micros - seconds * 1000000).toNat }

/-- A natural with leading zeros. -/
def zeroPadded (width n : Nat) : String :=
  let digits := Nat.toDigits 10 n
  String.ofList (List.replicate (width - digits.length) '0' ++ digits)

namespace Moment

/-- Hours, minutes and seconds. -/
def clockText (m : Moment) : String :=
  zeroPadded 2 m.hour ++ ":" ++ zeroPadded 2 m.minute ++ ":" ++ zeroPadded 2 m.second

/-- Date and time with the offset; the fraction is left out if it is zero. -/
def isoText (m : Moment) : String :=
  let fraction := if m.microsecond == 0 then "" else "." ++ zeroPadded 6 m.microsecond
  zeroPadded 4 m.year.toNat ++ "-" ++ zeroPadded 2 m.month ++ "-" ++ zeroPadded 2 m.day ++ "T"
    ++ m.clockText ++ fraction ++ "+00:00"

end Moment

end QuantumRisk.Log

import Mathlib
import QuantumRisk.Proofs.Json.Leaves

/-!
# Numbers in double precision have a numeral

The text of a finite number is laid out in one of four ways, with the point in different places or
with an exponent. Each of them is a `Numeral`: digits, a fraction and an exponent, as the reader of
JSON text takes them apart. So the text of every number is read as one number and no more.

Which number is read depends on the text alone. That it is the number that was written is not needed
here, so nothing is said about rounding.
-/

namespace QuantumRisk.Json

open Reader
open Number (Binary64 Magnitude dropZeros)

/-! ## Numerals -/

def Digits (cs : List Char) : Prop := ∀ c ∈ cs, c.isDigit = true

/-- An unsigned number with a fraction or an exponent, as it is written. An exponent has a sign,
which is `true` for a minus, and digits. -/
structure Numeral where
  whole : List Char
  fraction : List Char
  exponent : Option (Bool × List Char)
  whole_digits : Digits whole
  whole_ne_nil : whole ≠ []
  whole_head : whole.length > 1 → whole.head? ≠ some '0'
  fraction_digits : Digits fraction
  exponent_digits : ∀ x ∈ exponent, x.2 ≠ [] ∧ Digits x.2
  proper : fraction ≠ [] ∨ exponent.isSome

namespace Numeral

def fractionChars (n : Numeral) : List Char :=
  if n.fraction = [] then [] else '.' :: n.fraction

def exponentChars (n : Numeral) : List Char :=
  match n.exponent with
  | none => []
  | some (negative, ds) => 'e' :: (if negative then '-' else '+') :: ds

def chars (n : Numeral) : List Char := n.whole ++ n.fractionChars ++ n.exponentChars

/-- The exponent that is written; without one it is zero. -/
def exponentValue (n : Numeral) : Int :=
  match n.exponent with
  | none => 0
  | some (negative, ds) => if negative then -(digitsValue ds : Int) else digitsValue ds

/-- The number that is read. -/
def number (n : Numeral) (negative : Bool) : Binary64 :=
  .ofDecimal negative (digitsValue (n.whole ++ n.fraction)) (n.exponentValue - n.fraction.length)

end Numeral

/-! ## Reading a numeral -/

theorem takeExponent_exponentChars (n : Numeral) {rest : List Char} (hrest : EndsNumber rest) :
    takeExponent (n.exponentChars ++ rest)
      = some (n.exponent.map fun _ ↦ n.exponentValue, rest) := by
  rw [Numeral.exponentChars, Numeral.exponentValue]
  cases hexponent : n.exponent with
  | none => exact takeExponent_of_endsNumber hrest
  | some x =>
    obtain ⟨negative, ds⟩ := x
    obtain ⟨hne, hdigits⟩ := n.exponent_digits _ hexponent
    have htake := takeDigits_of_digits hdigits fun c hc ↦ (hrest c hc).1
    cases negative with
    | true => simp [takeExponent, htake, hne]
    | false => simp [takeExponent, htake, hne]

/-- The exponent does not continue the digits before it. -/
theorem head?_exponentChars (n : Numeral) {rest : List Char} (hrest : EndsNumber rest) :
    ∀ c ∈ (n.exponentChars ++ rest).head?, c.isDigit = false ∧ c ≠ '.' := by
  rw [Numeral.exponentChars]
  cases n.exponent with
  | none => exact fun c hc ↦ ⟨(hrest c hc).1, (hrest c hc).2.1⟩
  | some x => simp

theorem head?_fractionChars (n : Numeral) {rest : List Char} (hrest : EndsNumber rest) :
    ∀ c ∈ (n.fractionChars ++ (n.exponentChars ++ rest)).head?, c.isDigit = false := by
  rw [Numeral.fractionChars]
  split
  · exact fun c hc ↦ (head?_exponentChars n hrest c hc).1
  · simp

theorem unsigned_chars (n : Numeral) (negative : Bool) {rest : List Char}
    (hrest : EndsNumber rest) :
    unsigned negative (n.chars ++ rest) = some (.float (n.number negative), rest) := by
  have hwhole : takeDigits (n.chars ++ rest)
      = (n.whole, n.fractionChars ++ (n.exponentChars ++ rest)) := by
    rw [Numeral.chars, List.append_assoc, List.append_assoc]
    exact takeDigits_of_digits n.whole_digits (head?_fractionChars n hrest)
  have hproper :
      (n.whole.isEmpty || (n.whole.length > 1 && n.whole.head? == some '0')) = false := by
    simpa [n.whole_ne_nil] using n.whole_head
  have hexponent := takeExponent_exponentChars n hrest
  rw [unsigned, hwhole]
  simp only [hproper]
  rw [Numeral.number]
  by_cases hfraction : n.fraction = []
  · -- then there is an exponent
    obtain ⟨x, hx⟩ := Option.isSome_iff_exists.mp (n.proper.resolve_left (not_not_intro hfraction))
    have hpoint : ∀ r, n.exponentChars ++ rest ≠ '.' :: r := fun r hr ↦
      (head?_exponentChars n hrest '.' (by rw [hr]; rfl)).2 rfl
    rw [hx, Option.map_some] at hexponent
    rw [Numeral.fractionChars, if_pos hfraction]
    simp [hexponent, hfraction]
  · have hdigits := takeDigits_of_digits n.fraction_digits fun c hc ↦
      (head?_exponentChars n hrest c hc).1
    rw [Numeral.fractionChars, if_neg hfraction]
    cases hx : n.exponent with
    | none => simp [hdigits, hexponent, hfraction, hx, Numeral.exponentValue]
    | some x => simp [hdigits, hexponent, hfraction, hx]

/-! ## Layouts are numerals -/

theorem toList_toString_nat (n : Nat) : (toString n).toList = Nat.toDigits 10 n := Nat.toList_repr

theorem digits_toDigits (n : Nat) : Digits (Nat.toDigits 10 n) := fun _ hc ↦
  Nat.isDigit_of_mem_toDigits (by decide) (by decide) hc

theorem digits_append {cs ds : List Char} (hcs : Digits cs) (hds : Digits ds) :
    Digits (cs ++ ds) := fun c hc ↦ (List.mem_append.mp hc).elim (hcs c) (hds c)

theorem digits_zeros (n : Nat) : Digits (List.replicate n '0') := by
  intro c hc
  rw [List.eq_of_mem_replicate hc]
  decide

theorem head?_toDigits_ne {n : Nat} (hn : n ≠ 0) : (Nat.toDigits 10 n).head? ≠ some '0' := fun h ↦
  hn (eq_zero_of_head?_toDigits h)

/-- Digits on both sides of a point. -/
theorem exists_numeral_point (whole fraction : List Char) (hwhole : Digits whole) (hne : whole ≠ [])
    (hhead : whole.length > 1 → whole.head? ≠ some '0') (hfraction : Digits fraction)
    (hne' : fraction ≠ []) : ∃ n : Numeral, whole ++ '.' :: fraction = n.chars := by
  refine ⟨⟨whole, fraction, none, hwhole, hne, hhead, hfraction, by simp, .inl hne'⟩, ?_⟩
  simp [Numeral.chars, Numeral.fractionChars, Numeral.exponentChars, hne']

/-- One digit, those behind it, and an exponent. -/
theorem exists_numeral_exponent {ds shown : List Char} (hds : Digits ds) (hne : ds ≠ [])
    (hshown : Digits shown) (hne' : shown ≠ []) (negative : Bool) : ∃ n : Numeral,
      ds.take 1 ++ (if ds.length > 1 then '.' :: ds.drop 1 else [])
        ++ 'e' :: (if negative then '-' else '+') :: shown = n.chars := by
  refine ⟨⟨ds.take 1, ds.drop 1, some (negative, shown), fun c hc ↦ hds c (List.mem_of_mem_take hc),
    by simp [hne], fun h ↦ ?_, fun c hc ↦ hds c (List.mem_of_mem_drop hc), by simp [hshown, hne'],
    .inr rfl⟩, ?_⟩
  · rw [List.length_take] at h
    omega
  · simp only [Numeral.chars, Numeral.fractionChars, Numeral.exponentChars, List.drop_eq_nil_iff]
    by_cases hone : ds.length > 1
    · rw [if_pos hone, if_neg (Nat.not_le.mpr hone)]
    · rw [if_neg hone, if_pos (Nat.not_lt.mp hone)]

theorem exists_numeral_layout {digits : Nat} (hdigits : digits ≠ 0) (e : Int) :
    ∃ n : Numeral, (Binary64.layout digits e).toList = n.chars := by
  have hds := digits_toDigits digits
  have hne : Nat.toDigits 10 digits ≠ [] := Nat.toDigits_ne_nil
  have hhead := head?_toDigits_ne hdigits
  rw [Binary64.layout]
  simp only [toList_toString_nat]
  generalize e + ((toString digits).length : Int) = point
  split
  · split
    · -- the point stands before the digits
      obtain ⟨n, hn⟩ := exists_numeral_point ['0']
        (List.replicate (-point).toNat '0' ++ Nat.toDigits 10 digits) (by simp [Digits]) (by simp)
        (by simp) (digits_append (digits_zeros _) hds) (by simp [hne])
      exact ⟨n, by simpa [toList_toString_nat] using hn⟩
    split
    · -- among them
      obtain ⟨n, hn⟩ := exists_numeral_point ((Nat.toDigits 10 digits).take point.toNat)
        ((Nat.toDigits 10 digits).drop point.toNat) (fun c hc ↦ hds c (List.mem_of_mem_take hc))
        (by simp [hne]; omega) (fun _ ↦ by rw [List.head?_take, if_neg (by omega)]; exact hhead)
        (fun c hc ↦ hds c (List.mem_of_mem_drop hc)) (by simp; omega)
      exact ⟨n, by simpa using hn⟩
    · -- behind them
      obtain ⟨n, hn⟩ := exists_numeral_point (Nat.toDigits 10 digits
          ++ List.replicate (point.toNat - (Nat.toDigits 10 digits).length) '0') ['0']
        (digits_append hds (digits_zeros _)) (by simp [hne])
        (fun _ ↦ by rwa [List.head?_append, Option.or_of_isSome (by simp [hne])])
        (by simp [Digits]) (by simp)
      exact ⟨n, by simpa [toList_toString_nat] using hn⟩
  · have hshown : Digits (if (toString (point - 1).natAbs).length < 2
        then "0" ++ toString (point - 1).natAbs else toString (point - 1).natAbs).toList := by
      have habs := digits_toDigits (point - 1).natAbs
      split
      · simpa [toList_toString_nat, Digits] using habs
      · rwa [toList_toString_nat]
    have hshown' : (if (toString (point - 1).natAbs).length < 2
        then "0" ++ toString (point - 1).natAbs else toString (point - 1).natAbs).toList ≠ [] := by
      split
      · simp
      · rw [toList_toString_nat]
        exact Nat.toDigits_ne_nil
    obtain ⟨n, hn⟩ := exists_numeral_exponent hds hne hshown hshown' (decide (point - 1 < 0))
    refine ⟨n, hn ▸ ?_⟩
    by_cases hone : (Nat.toDigits 10 digits).length > 1 <;> by_cases hnegative : point - 1 < 0 <;>
      simp [hone, hnegative]

/-! ## Digits that are written -/

/-- Zero is not read back as a number above zero. -/
theorem readsBack_zero {x : Magnitude} (hx : x.mantissa ≠ 0) (e : Int) :
    x.readsBack 0 e = false := by
  have hgap : x.lowerGap ≤ 2 := by
    rw [Magnitude.lowerGap]
    split <;> omega
  have hlow : 0 < (x.ratio (4 * x.mantissa - x.lowerGap)).1 := by
    have hpos : 0 < 4 * x.mantissa - x.lowerGap := by omega
    rw [Magnitude.ratio]
    split
    · rw [Nat.shiftLeft_eq]
      exact Nat.mul_pos hpos (Nat.two_pow_pos _)
    · exact hpos
  unfold Magnitude.readsBack
  cases e with
  | ofNat k => simp [hlow.ne']
  | negSucc k => simp [hlow.ne']

theorem withDigits_ne_zero {x : Magnitude} (hx : x.mantissa ≠ 0) {k : Int} {n : Nat}
    {d : Nat × Int} (h : x.withDigits k n = some d) : d.1 ≠ 0 := by
  unfold Magnitude.withDigits at h
  have hlow {low : Nat} {e : Int} (hhit : x.readsBack low e = true) : low ≠ 0 := by
    rintro rfl
    rw [readsBack_zero hx] at hhit
    cases hhit
  dsimp only at h
  split at h
  · next hhit _ =>
    split at h
    · cases h
      exact hlow hhit
    · cases h
      exact Nat.succ_ne_zero _
  · next hhit _ =>
    cases h
    exact hlow hhit
  · cases h
    exact Nat.succ_ne_zero _
  · cases h

theorem shortest_ne_zero {x : Magnitude} (hx : x.mantissa ≠ 0) : x.shortest.1 ≠ 0 := by
  rw [Magnitude.shortest]
  cases hfound : (List.range 17).findSome? fun i ↦ x.withDigits x.scale (i + 1) with
  | some d =>
    obtain ⟨i, -, hi⟩ := List.exists_of_findSome?_eq_some hfound
    exact withDigits_ne_zero hx hi
  | none =>
    rw [Option.getD_none]
    split
    · rw [Nat.shiftLeft_eq]
      exact Nat.mul_ne_zero hx (Nat.two_pow_pos _).ne'
    · exact Nat.mul_ne_zero hx (Nat.pow_pos (Nat.succ_pos 4)).ne'

theorem dropZeros_ne_zero (fuel : Nat) {d : Nat} (hd : d ≠ 0) (e : Int) :
    (dropZeros fuel d e).1 ≠ 0 := by
  induction fuel generalizing d e with
  | zero => exact hd
  | succ fuel ih =>
    rw [dropZeros]
    split
    · next h =>
      refine ih ?_ (e + 1)
      simp only [Bool.and_eq_true, bne_iff_ne, beq_iff_eq] at h
      omega
    · exact hd

/-! ## The text of a number -/

theorem exists_numeral_floatText (negative : Bool) (m : Nat) (e : Int) : ∃ n : Numeral,
    (floatText (.finite negative m e)).toList = (if negative then ['-'] else []) ++ n.chars := by
  have htext : floatText (.finite negative m e) = Binary64.text (.finite negative m e) := rfl
  rw [htext, Binary64.text]
  split
  · obtain ⟨n, hn⟩ := exists_numeral_point ['0'] ['0'] (by simp [Digits]) (by simp) (by simp)
      (by simp [Digits]) (by simp)
    refine ⟨n, hn ▸ ?_⟩
    cases negative <;> rfl
  · next hm =>
    have hm' : m ≠ 0 := by simpa using hm
    obtain ⟨n, hn⟩ := exists_numeral_layout
      (dropZeros_ne_zero 400 (shortest_ne_zero (x := ⟨m, e⟩) hm') (Magnitude.shortest ⟨m, e⟩).2)
      (dropZeros 400 (Magnitude.shortest ⟨m, e⟩).1 (Magnitude.shortest ⟨m, e⟩).2).2
    refine ⟨n, hn ▸ ?_⟩
    cases negative <;> simp

theorem exists_digit_chars (n : Numeral) : ∃ c cs, n.chars = c :: cs ∧ c.isDigit = true := by
  obtain ⟨c, cs, hwhole⟩ := List.exists_cons_of_ne_nil n.whole_ne_nil
  refine ⟨c, cs ++ n.fractionChars ++ n.exponentChars, ?_, n.whole_digits c (by simp [hwhole])⟩
  rw [Numeral.chars, hwhole, List.cons_append, List.cons_append]

theorem length_floatText_pos (x : Binary64) : 0 < (floatText x).toList.length := by
  cases x with
  | nan => decide
  | infinite negative => cases negative <;> decide
  | finite negative m e =>
    obtain ⟨n, hn⟩ := exists_numeral_floatText negative m e
    obtain ⟨c, cs, hchars, -⟩ := exists_digit_chars n
    simp [hn, hchars]

end QuantumRisk.Json

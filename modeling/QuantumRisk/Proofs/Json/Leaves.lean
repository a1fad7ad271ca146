import Mathlib.Data.List.TakeDrop
import QuantumRisk.Json.Printer
import QuantumRisk.Json.Reader
import QuantumRisk.Proofs.Text.RoundTrip

/-!
# The leaves of JSON text

Strings, numbers and blanks are read back one by one. A string is read up to its closing quote,
whatever follows. A number is different: it has no end of its own, so what follows must not continue
it, and every later statement about values carries that condition, `EndsNumber`.

Between the punctuation there are only blanks, and how many depends on layout and depth. The reader
skips them, so a layout enters the proofs as three lists of blanks and nothing else.
-/

namespace QuantumRisk.Json

open Reader

/-! ## Strings -/

theorem hexValue_hexDigit : ∀ n < 16, hexValue (hexDigit n) = some n := by decide

theorem unit_hexDigits {n : Nat} (hn : n < 0x10000) :
    Reader.unit (hexDigit (n / 4096 % 16)) (hexDigit (n / 256 % 16)) (hexDigit (n / 16 % 16))
      (hexDigit (n % 16)) = some n := by
  rw [Reader.unit, hexValue_hexDigit _ (by omega), hexValue_hexDigit _ (by omega),
    hexValue_hexDigit _ (by omega), hexValue_hexDigit _ (by omega)]
  have hsum : ((n / 4096 % 16 * 16 + n / 256 % 16) * 16 + n / 16 % 16) * 16 + n % 16 = n := by
    omega
  exact congrArg some hsum

theorem stringBody_cons {c : Char} (hq : c ≠ '"') (hb : c ≠ '\\') (hc : 0x20 ≤ c.toNat)
    (rest : List Char) :
    stringBody (c :: rest) = (stringBody rest).map fun r ↦ (c :: r.1, r.2) := by
  rw [stringBody]
  · rw [if_neg (by omega)]
    cases stringBody rest <;> rfl
  all_goals simp_all

theorem stringBody_shortEscape {c e : Char} (he : shortEscape e = some c) (rest : List Char) :
    stringBody ('\\' :: e :: rest) = (stringBody rest).map fun r ↦ (c :: r.1, r.2) := by
  rw [stringBody]
  · rw [he]
    cases stringBody rest <;> rfl
  · rintro a b c d rest' rfl
    simp [shortEscape] at he

theorem stringBody_escapeUnit {n : Nat} (hn : n < 0xD800 ∨ 0xDFFF < n) (hlt : n < 0x10000)
    (rest : List Char) :
    stringBody (escapeUnit n ++ rest)
      = (stringBody rest).map fun r ↦ (Char.ofNat n :: r.1, r.2) := by
  have hhigh : isHighSurrogate n = false := by
    simp only [isHighSurrogate, Bool.and_eq_false_iff, decide_eq_false_iff_not]
    omega
  have hlow : isLowSurrogate n = false := by
    simp only [isLowSurrogate, Bool.and_eq_false_iff, decide_eq_false_iff_not]
    omega
  simp only [escapeUnit, List.cons_append, List.nil_append]
  rw [stringBody, unit_hexDigits hlt]
  simp only [Option.bind_eq_bind, Option.bind_some, hhigh, hlow]
  cases stringBody rest <;> rfl

/-- A character beyond the first plane is written as two units, which are read as one character. -/
theorem stringBody_escapeUnits {high low : Nat} (hh : isHighSurrogate high = true)
    (hl : isLowSurrogate low = true) (rest : List Char) :
    stringBody (escapeUnit high ++ escapeUnit low ++ rest)
      = (stringBody rest).map fun r ↦ (joinSurrogates high low :: r.1, r.2) := by
  have hhigh : high < 0x10000 := by
    simp only [isHighSurrogate, Bool.and_eq_true, decide_eq_true_eq] at hh
    omega
  have hlow : low < 0x10000 := by
    simp only [isLowSurrogate, Bool.and_eq_true, decide_eq_true_eq] at hl
    omega
  simp only [escapeUnit, List.cons_append, List.nil_append]
  rw [stringBody, unit_hexDigits hhigh]
  simp only [Option.bind_eq_bind, Option.bind_some, hh, if_true]
  rw [unit_hexDigits hlow]
  simp only [Option.bind_some, hl, if_true]
  cases stringBody rest <;> rfl

theorem joinSurrogates_of_ge {n : Nat} (hn : 0x10000 ≤ n) :
    joinSurrogates (0xD800 + (n - 0x10000) / 0x400) (0xDC00 + (n - 0x10000) % 0x400)
      = Char.ofNat n := by
  have hsum : 0x10000 + (0xD800 + (n - 0x10000) / 0x400 - 0xD800) * 0x400
      + (0xDC00 + (n - 0x10000) % 0x400 - 0xDC00) = n := by omega
  rw [joinSurrogates, hsum]

/-- Each character is read back from the way it is written, whichever way that is. -/
theorem stringBody_escapeChar (ascii : Bool) (c : Char) (rest : List Char) :
    stringBody (escapeChar ascii c ++ rest)
      = (stringBody rest).map fun r ↦ (c :: r.1, r.2) := by
  -- the short escapes first, then the escapes by number, last the characters that stand for
  -- themselves
  unfold escapeChar
  split
  · next h => rw [eq_of_beq h]; exact stringBody_shortEscape rfl rest
  split
  · next h => rw [eq_of_beq h]; exact stringBody_shortEscape rfl rest
  split
  · next h => rw [eq_of_beq h]; exact stringBody_shortEscape rfl rest
  split
  · next h => rw [eq_of_beq h]; exact stringBody_shortEscape rfl rest
  split
  · next h => rw [eq_of_beq h]; exact stringBody_shortEscape rfl rest
  split
  · next h => rw [eq_of_beq h]; exact stringBody_shortEscape rfl rest
  split
  · next h => rw [eq_of_beq h]; exact stringBody_shortEscape rfl rest
  have hsur := Text.toNat_lt_or_gt_surrogates c
  have hlt := Text.toNat_lt c
  split
  · rw [stringBody_escapeUnit hsur (by omega), Char.ofNat_toNat]
  split
  · split
    · next h => rw [stringBody_escapeUnit hsur h, Char.ofNat_toNat]
    · rw [stringBody_escapeUnits _ _ rest, joinSurrogates_of_ge (by omega), Char.ofNat_toNat]
      · simp only [isHighSurrogate, Bool.and_eq_true, decide_eq_true_eq]
        omega
      · simp only [isLowSurrogate, Bool.and_eq_true, decide_eq_true_eq]
        omega
  · next hq hb _ _ _ _ _ hc _ =>
    exact stringBody_cons (by simpa using hq) (by simpa using hb) (by omega) rest

theorem stringBody_flatMap_escapeChar (ascii : Bool) (cs rest : List Char) :
    stringBody (cs.flatMap (escapeChar ascii) ++ '"' :: rest) = some (cs, rest) := by
  induction cs with
  | nil => rw [List.flatMap_nil, List.nil_append, stringBody]
  | cons c cs ih =>
    rw [List.flatMap_cons, List.append_assoc, stringBody_escapeChar, ih, Option.map_some]

theorem toList_quote_append (ascii : Bool) (s : String) (rest : List Char) :
    (quote ascii s).toList ++ rest
      = '"' :: (s.toList.flatMap (escapeChar ascii) ++ '"' :: rest) := by
  rw [quote, quoteChars, String.toList_ofList, List.cons_append, List.append_assoc,
    List.singleton_append]

/-! ## Numbers -/

/-- Nothing at the beginning of a text continues a number. -/
def EndsNumber (cs : List Char) : Prop :=
  ∀ c ∈ cs.head?, c.isDigit = false ∧ c ≠ '.' ∧ c ≠ 'e' ∧ c ≠ 'E'

theorem endsNumber_nil : EndsNumber [] := by
  intro c hc
  simp at hc

theorem endsNumber_cons {c : Char} {cs : List Char} (hd : c.isDigit = false) (hp : c ≠ '.')
    (he : c ≠ 'e') (hE : c ≠ 'E') : EndsNumber (c :: cs) := by
  intro d hd'
  rw [List.head?_cons, Option.mem_some_iff] at hd'
  subst hd'
  exact ⟨hd, hp, he, hE⟩

/-- A run of digits ends before anything that is no digit. -/
theorem takeDigits_of_digits {ds rest : List Char} (hds : ∀ c ∈ ds, c.isDigit = true)
    (hrest : ∀ c ∈ rest.head?, c.isDigit = false) : takeDigits (ds ++ rest) = (ds, rest) := by
  have htake : rest.takeWhile Char.isDigit = [] := by
    cases rest with
    | nil => rfl
    | cons c cs => rw [List.takeWhile_cons_of_neg (by simp [hrest c rfl])]
  have hdrop : rest.dropWhile Char.isDigit = rest := by
    cases rest with
    | nil => rfl
    | cons c cs => rw [List.dropWhile_cons_of_neg (by simp [hrest c rfl])]
  rw [takeDigits, List.span_eq_takeWhile_dropWhile, List.takeWhile_append_of_pos hds,
    List.dropWhile_append_of_pos hds, htake, hdrop, List.append_nil]

theorem takeDigits_append {ds rest : List Char} (hds : ∀ c ∈ ds, c.isDigit = true)
    (hrest : EndsNumber rest) : takeDigits (ds ++ rest) = (ds, rest) :=
  takeDigits_of_digits hds fun c hc ↦ (hrest c hc).1

theorem takeExponent_of_endsNumber {cs : List Char} (h : EndsNumber cs) :
    takeExponent cs = some (none, cs) := by
  cases cs with
  | nil => rfl
  | cons c cs =>
    obtain ⟨-, -, he, hE⟩ := h c rfl
    simp [takeExponent, he, hE]

theorem digitsValue_toDigits (n : Nat) : digitsValue (Nat.toDigits 10 n) = n := by
  have h := Nat.ofDigitChars_ten_toDigits (n := n)
  rw [Nat.ofDigitChars_eq_foldl] at h
  simpa only [digitsValue, Nat.mul_comm 10] using h

/-- A number of more than one digit does not begin with a zero. -/
theorem eq_zero_of_head?_toDigits {n : Nat} (h : (Nat.toDigits 10 n).head? = some '0') : n = 0 := by
  have hone : ∀ m < 10, m.digitChar = '0' → m = 0 := by decide
  induction n using Nat.base_induction 10 (by decide) with
  | single m hm =>
    rw [Nat.toDigits_of_lt_base hm, List.head?_cons, Option.some_inj] at h
    exact hone m hm h
  | digit m k hk hm ih =>
    rw [← Nat.toDigits_append_toDigits (by decide) hm hk, List.head?_append,
      Option.or_of_isSome (by simp [Nat.toDigits_ne_nil])] at h
    exact absurd (ih h) (by omega)

theorem unsigned_toDigits (negative : Bool) (n : Nat) {rest : List Char} (hrest : EndsNumber rest) :
    unsigned negative (Nat.toDigits 10 n ++ rest)
      = some (.int (if negative then -(n : Int) else n), rest) := by
  have hdigits : ∀ c ∈ Nat.toDigits 10 n, c.isDigit = true := fun c hc ↦
    Nat.isDigit_of_mem_toDigits (by decide) (by decide) hc
  have hhead : ((Nat.toDigits 10 n).isEmpty || ((Nat.toDigits 10 n).length > 1
      && (Nat.toDigits 10 n).head? == some '0')) = false := by
    by_cases hz : (Nat.toDigits 10 n).head? = some '0'
    · rw [eq_zero_of_head?_toDigits hz, Nat.toDigits_zero]
      decide
    · simp [Nat.toDigits_ne_nil, hz]
  -- the digits stop at `rest`, which has neither a fraction nor an exponent to offer
  have hpoint : ∀ r, rest ≠ '.' :: r := by
    rintro r rfl
    exact (hrest '.' rfl).2.1 rfl
  rw [unsigned, takeDigits_append hdigits hrest]
  simp only [hhead]
  simp [takeExponent_of_endsNumber hrest, digitsValue_toDigits]

/-! ## Blanks -/

/-- Nothing but blanks. -/
def Blanks (ws : List Char) : Prop := ∀ c ∈ ws, isSpace c = true

theorem skipSpace_append {ws : List Char} (h : Blanks ws) (cs : List Char) :
    skipSpace (ws ++ cs) = skipSpace cs := by
  rw [skipSpace, skipSpace, List.dropWhile_append_of_pos h]

theorem skipSpace_cons {c : Char} (h : isSpace c = false) (cs : List Char) :
    skipSpace (c :: cs) = c :: cs := by
  rw [skipSpace, List.dropWhile_cons_of_neg (by simp [h])]

theorem value_blanks_append {ws : List Char} (h : Blanks ws) (fuel : Nat) (cs : List Char) :
    value fuel (ws ++ cs) = value fuel cs := by
  cases fuel with
  | zero => rw [value, value]
  | succ fuel => rw [value, value, skipSpace_append h]

/-- What a layout puts between entries: a comma, and blanks everywhere else. -/
theorem exists_blanks_separators (layout : Layout) (depth : Nat) :
    ∃ a b c, Blanks a ∧ Blanks b ∧ Blanks c ∧
      separators layout depth = (String.ofList (',' :: a), String.ofList b, String.ofList c) := by
  have hline : ∀ d, Blanks ('\n' :: List.replicate (2 * d) ' ') := by
    intro d c hc
    rcases List.mem_cons.mp hc with rfl | hc
    · decide
    · rw [List.eq_of_mem_replicate hc]
      decide
  have hnil : Blanks [] := fun c hc ↦ absurd hc List.not_mem_nil
  cases layout with
  | compact => exact ⟨[], [], [], hnil, hnil, hnil, rfl⟩
  | spaced => exact ⟨[' '], [], [], by intro c hc; simp_all [isSpace], hnil, hnil, rfl⟩
  | indented =>
    refine ⟨_, _, _, hline (depth + 1), hline (depth + 1), hline depth, ?_⟩
    simp only [separators, Prod.mk.injEq]
    refine ⟨?_, ?_, ?_⟩ <;> · apply String.toList_inj.mp; simp

theorem exists_blanks_colon (layout : Layout) :
    ∃ ws, Blanks ws ∧ (colon layout).toList = ':' :: ws := by
  cases layout with
  | compact => exact ⟨[], fun c hc ↦ absurd hc List.not_mem_nil, rfl⟩
  | spaced => exact ⟨[' '], by intro c hc; simp_all [isSpace], rfl⟩
  | indented => exact ⟨[' '], by intro c hc; simp_all [isSpace], rfl⟩

end QuantumRisk.Json

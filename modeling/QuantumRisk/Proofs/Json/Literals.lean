import QuantumRisk.Proofs.Json.RoundTrip

/-!
# Numbers as they are written

Two JSON texts may give the same numbers in different ways. To compare the numbers as they are
written, `quoteNumbers` puts every number of a text into quotes, so that it is read as a string. In
the text of a value, in any style, this comes to the same as putting its numbers into quotes before
they are written (`withLiterals`).

The only thing that can go wrong is that something within a string is taken for a number. So the
scanner has to know where strings end, and a quote behind a backslash is not an end.
-/

namespace QuantumRisk.Json

open Reader
open Number (Binary64)

/-! ## Putting numbers into quotes -/

/-- Where a character of a JSON text stands. -/
inductive Spot where
  | outside
  | number
  | string
  /-- Behind a backslash in a string. -/
  | escape

def beginsNumber (c : Char) : Bool := c.isDigit || c == '-' || c == 'N' || c == 'I'

def continuesNumber (c : Char) : Bool := c.isAlphanum || c == '-' || c == '+' || c == '.'

/-- Put the numbers of a text into quotes, from a spot on. -/
def quoteFrom : Spot → List Char → List Char
  | .number, [] => ['"']
  | _, [] => []
  | .outside, c :: cs =>
    if beginsNumber c then '"' :: c :: quoteFrom .number cs
    else c :: quoteFrom (if c = '"' then .string else .outside) cs
  | .number, c :: cs =>
    if continuesNumber c then c :: quoteFrom .number cs
    else '"' :: c :: quoteFrom (if c = '"' then .string else .outside) cs
  | .string, c :: cs =>
    c :: quoteFrom (if c = '"' then .outside else if c = '\\' then .escape else .string) cs
  | .escape, c :: cs => c :: quoteFrom .string cs

/-- The text with its numbers in quotes. -/
def quoteNumbers (text : String) : String := String.ofList (quoteFrom .outside text.toList)

mutual

/-- The value with its numbers as strings. -/
def withLiterals : Json → Json
  | .int n => .str (toString n)
  | .float x => .str (floatText x)
  | .arr items => .arr (withLiteralsItems items)
  | .obj members => .obj (withLiteralsMembers members)
  | .null => .null
  | .bool b => .bool b
  | .str s => .str s

def withLiteralsItems : List Json → List Json
  | [] => []
  | v :: vs => withLiterals v :: withLiteralsItems vs

def withLiteralsMembers : List (String × Json) → List (String × Json)
  | [] => []
  | (k, v) :: ms => (k, withLiterals v) :: withLiteralsMembers ms

end

theorem keys_withLiteralsMembers (ms : List (String × Json)) :
    (withLiteralsMembers ms).map (·.1) = ms.map (·.1) := by
  induction ms with
  | nil => rfl
  | cons m ms ih => rw [withLiteralsMembers, List.map_cons, List.map_cons, ih]

mutual

theorem exact_withLiterals : ∀ v : Json, v.UniqueKeys → v.withLiterals.Exact
  | .null, _ | .bool _, _ | .int _, _ | .float _, _ | .str _, _ => trivial
  | .arr items, h => exactItems_withLiteralsItems items h
  | .obj members, h => by
    refine ⟨?_, exactMembers_withLiteralsMembers members h.2⟩
    rw [keys_withLiteralsMembers]
    exact h.1

theorem exactItems_withLiteralsItems : ∀ vs : List Json, UniqueKeysItems vs →
    ExactItems (withLiteralsItems vs)
  | [], _ => trivial
  | v :: vs, h => ⟨exact_withLiterals v h.1, exactItems_withLiteralsItems vs h.2⟩

theorem exactMembers_withLiteralsMembers : ∀ ms : List (String × Json), UniqueKeysMembers ms →
    ExactMembers (withLiteralsMembers ms)
  | [], _ => trivial
  | (_, v) :: ms, h => ⟨exact_withLiterals v h.1, exactMembers_withLiteralsMembers ms h.2⟩

end

/-! ## Strings and punctuation stay as they are -/

theorem quoteFrom_plain {cs : List Char} (h : ∀ c ∈ cs, beginsNumber c = false ∧ c ≠ '"')
    (rest : List Char) : quoteFrom .outside (cs ++ rest) = cs ++ quoteFrom .outside rest := by
  induction cs with
  | nil => rfl
  | cons c cs ih =>
    obtain ⟨⟨hnumber, hquote⟩, hcs⟩ := List.forall_mem_cons.mp h
    rw [List.cons_append, quoteFrom, hnumber, if_neg (by decide), if_neg hquote, ih hcs,
      List.cons_append]

theorem plain_of_blanks {ws : List Char} (h : Blanks ws) :
    ∀ c ∈ ws, beginsNumber c = false ∧ c ≠ '"' := by
  intro c hc
  have hspace := h c hc
  rw [isSpace] at hspace
  simp only [Bool.or_eq_true, beq_iff_eq] at hspace
  rcases hspace with ((rfl | rfl) | rfl) | rfl <;> decide

theorem quoteFrom_string {cs : List Char} (h : ∀ c ∈ cs, c ≠ '"' ∧ c ≠ '\\') (rest : List Char) :
    quoteFrom .string (cs ++ rest) = cs ++ quoteFrom .string rest := by
  induction cs with
  | nil => rfl
  | cons c cs ih =>
    obtain ⟨⟨hquote, hbackslash⟩, hcs⟩ := List.forall_mem_cons.mp h
    rw [List.cons_append, quoteFrom, if_neg hquote, if_neg hbackslash, ih hcs, List.cons_append]

theorem quoteFrom_backslash (c : Char) (rest : List Char) :
    quoteFrom .string ('\\' :: c :: rest) = '\\' :: c :: quoteFrom .string rest := by
  rw [quoteFrom, if_neg (by decide), if_pos rfl, quoteFrom]

theorem quoteFrom_escapeUnit (n : Nat) (rest : List Char) :
    quoteFrom .string (escapeUnit n ++ rest) = escapeUnit n ++ quoteFrom .string rest := by
  have hdigit : ∀ n < 16, hexDigit n ≠ '"' ∧ hexDigit n ≠ '\\' := by decide
  have hdigits : ∀ c ∈ [hexDigit (n / 4096 % 16), hexDigit (n / 256 % 16), hexDigit (n / 16 % 16),
      hexDigit (n % 16)], c ≠ '"' ∧ c ≠ '\\' := by
    simp only [List.forall_mem_cons, List.not_mem_nil, false_implies, implies_true, and_true]
    exact ⟨hdigit _ (by omega), hdigit _ (by omega), hdigit _ (by omega), hdigit _ (by omega)⟩
  have hrest := quoteFrom_string hdigits rest
  rw [escapeUnit, List.cons_append, List.cons_append, quoteFrom_backslash, hrest]
  rfl

theorem quoteFrom_escapeChar (ascii : Bool) (c : Char) (rest : List Char) :
    quoteFrom .string (escapeChar ascii c ++ rest)
      = escapeChar ascii c ++ quoteFrom .string rest := by
  unfold escapeChar
  split
  · exact quoteFrom_backslash _ rest
  split
  · exact quoteFrom_backslash _ rest
  split
  · exact quoteFrom_backslash _ rest
  split
  · exact quoteFrom_backslash _ rest
  split
  · exact quoteFrom_backslash _ rest
  split
  · exact quoteFrom_backslash _ rest
  split
  · exact quoteFrom_backslash _ rest
  split
  · exact quoteFrom_escapeUnit _ rest
  split
  · split
    · exact quoteFrom_escapeUnit _ rest
    · rw [List.append_assoc, quoteFrom_escapeUnit, quoteFrom_escapeUnit, List.append_assoc]
  · next hquote hbackslash _ _ _ _ _ _ _ =>
    exact quoteFrom_string (by simpa using ⟨by simpa using hquote, by simpa using hbackslash⟩) rest

theorem quoteFrom_quote (ascii : Bool) (s : String) (rest : List Char) :
    quoteFrom .outside ((quote ascii s).toList ++ rest)
      = (quote ascii s).toList ++ quoteFrom .outside rest := by
  have hbody (cs : List Char) : quoteFrom .string (cs.flatMap (escapeChar ascii) ++ '"' :: rest)
      = cs.flatMap (escapeChar ascii) ++ '"' :: quoteFrom .outside rest := by
    induction cs with
    | nil => rw [List.flatMap_nil, List.nil_append, List.nil_append, quoteFrom, if_pos rfl]
    | cons c cs ih =>
      rw [List.flatMap_cons, List.append_assoc, quoteFrom_escapeChar, ih, List.append_assoc]
  rw [toList_quote_append, toList_quote_append, quoteFrom, if_neg (by decide), if_pos rfl, hbody]

/-! ## Numbers are put into quotes -/

/-- Nothing at the beginning of a text continues a literal. -/
def EndsLiteral (cs : List Char) : Prop := ∀ c ∈ cs.head?, continuesNumber c = false

/-- How a number is written, which may also be a name. -/
structure IsLiteral (cs : List Char) : Prop where
  begins : ∃ c ds, cs = c :: ds ∧ beginsNumber c = true
  continues : ∀ c ∈ cs, continuesNumber c = true

theorem continuesNumber_of_beginsNumber {c : Char} (h : beginsNumber c = true) :
    continuesNumber c = true := by
  simp only [beginsNumber, Bool.or_eq_true, beq_iff_eq] at h
  rcases h with ((h | rfl) | rfl) | rfl
  · simp [continuesNumber, Char.isAlphanum, h]
  all_goals decide

theorem quoteFrom_number {cs rest : List Char} (h : ∀ c ∈ cs, continuesNumber c = true)
    (hrest : EndsLiteral rest) :
    quoteFrom .number (cs ++ rest) = cs ++ '"' :: quoteFrom .outside rest := by
  induction cs with
  | nil =>
    cases rest with
    | nil => rfl
    | cons c rest =>
      have hc := hrest c rfl
      have hbegin : beginsNumber c = false := by
        cases hb : beginsNumber c with
        | false => rfl
        | true => rw [continuesNumber_of_beginsNumber hb] at hc; cases hc
      simp [quoteFrom, hc, hbegin]
  | cons c cs ih =>
    obtain ⟨hc, hcs⟩ := List.forall_mem_cons.mp h
    rw [List.cons_append, quoteFrom, if_pos hc, ih hcs, List.cons_append]

theorem escapeChar_of_continuesNumber {c : Char} (h : continuesNumber c = true) (ascii : Bool) :
    escapeChar ascii c = [c] := by
  have hrange : 0x2b ≤ c.toNat ∧ c.toNat ≤ 0x7a ∧ c.toNat ≠ 0x5c := by
    simp only [continuesNumber, Char.isAlphanum, Char.isAlpha, Char.isUpper, Char.isLower,
      Char.isDigit, Bool.or_eq_true, Bool.and_eq_true, decide_eq_true_eq, beq_iff_eq] at h
    have hle {a b : Char} (hab : a.val ≤ b.val) : a.toNat ≤ b.toNat := UInt32.le_iff_toNat_le.mp hab
    rcases h with ((((⟨hl, hu⟩ | ⟨hl, hu⟩) | ⟨hl, hu⟩) | rfl) | rfl) | rfl
    · have hl' : 65 ≤ c.toNat := hle hl
      have hu' : c.toNat ≤ 90 := hle hu
      omega
    · have hl' : 97 ≤ c.toNat := hle hl
      have hu' : c.toNat ≤ 122 := hle hu
      omega
    · have hl' : 48 ≤ c.toNat := hle hl
      have hu' : c.toNat ≤ 57 := hle hu
      omega
    all_goals decide
  have hne {d : Char} (hd : d.toNat < 0x2b ∨ d.toNat = 0x5c) : (c == d) = false := by
    refine beq_eq_false_iff_ne.mpr ?_
    rintro rfl
    omega
  have hlow : ¬ c.toNat < 0x20 := by omega
  have hhigh : ¬ c.toNat ≥ 0x7f := by omega
  simp only [escapeChar, hne (d := '"') (by decide), hne (d := '\\') (by decide),
    hne (d := '\x08') (by decide), hne (d := '\x0c') (by decide), hne (d := '\n') (by decide),
    hne (d := '\r') (by decide), hne (d := '\t') (by decide), hlow, hhigh]
  simp

theorem quoteFrom_literal {s : String} (h : IsLiteral s.toList) (ascii : Bool) {rest : List Char}
    (hrest : EndsLiteral rest) :
    quoteFrom .outside (s.toList ++ rest)
      = (quote ascii s).toList ++ quoteFrom .outside rest := by
  obtain ⟨c, cs, hs, hc⟩ := h.begins
  have hcontinues := h.continues
  have hplain : s.toList.flatMap (escapeChar ascii) = s.toList := by
    rw [List.flatMap_congr fun d hd ↦ escapeChar_of_continuesNumber (hcontinues d hd) ascii]
    exact List.flatMap_singleton' _
  rw [toList_quote_append, hplain, hs, List.cons_append, quoteFrom, if_pos hc,
    quoteFrom_number (fun d hd ↦ hcontinues d (by rw [hs]; exact List.mem_cons_of_mem _ hd)) hrest]
  rfl

theorem continuesNumber_of_isDigit {c : Char} (h : c.isDigit = true) :
    continuesNumber c = true := by
  simp [continuesNumber, Char.isAlphanum, h]

theorem beginsNumber_of_isDigit {c : Char} (h : c.isDigit = true) : beginsNumber c = true := by
  simp [beginsNumber, h]

theorem isLiteral_toString (n : Int) : IsLiteral (toString n).toList := by
  have hdigits (m : Nat) : ∀ c ∈ Nat.toDigits 10 m, continuesNumber c = true := fun c hc ↦
    continuesNumber_of_isDigit (digits_toDigits m c hc)
  cases n with
  | ofNat n =>
    rw [toList_toString_ofNat]
    obtain ⟨c, cs, hcs⟩ := List.exists_cons_of_ne_nil (Nat.toDigits_ne_nil (b := 10) (n := n))
    have hc : c.isDigit = true := digits_toDigits n c (by rw [hcs]; exact List.mem_cons_self)
    exact ⟨⟨c, cs, hcs, beginsNumber_of_isDigit hc⟩, hdigits n⟩
  | negSucc n =>
    rw [toList_toString_negSucc]
    exact ⟨⟨_, _, rfl, by decide⟩, List.forall_mem_cons.mpr ⟨by decide, hdigits (n + 1)⟩⟩

theorem continuesNumber_of_mem_chars (n : Numeral) : ∀ c ∈ n.chars, continuesNumber c = true := by
  have hdigits {cs : List Char} (h : Digits cs) : ∀ c ∈ cs, continuesNumber c = true :=
    fun c hc ↦ continuesNumber_of_isDigit (h c hc)
  intro c hc
  rw [Numeral.chars, List.mem_append, List.mem_append] at hc
  rcases hc with (hc | hc) | hc
  · exact hdigits n.whole_digits c hc
  · rw [Numeral.fractionChars] at hc
    split at hc
    · cases hc
    · rcases List.mem_cons.mp hc with rfl | hc
      · decide
      · exact hdigits n.fraction_digits c hc
  · rw [Numeral.exponentChars] at hc
    cases hexponent : n.exponent with
    | none =>
      rw [hexponent] at hc
      cases hc
    | some x =>
      obtain ⟨negative, ds⟩ := x
      simp only [hexponent] at hc
      rcases List.mem_cons.mp hc with rfl | hc
      · decide
      rcases List.mem_cons.mp hc with rfl | hc
      · cases negative <;> decide
      · exact hdigits (n.exponent_digits _ hexponent).2 c hc

theorem isLiteral_floatText (x : Binary64) : IsLiteral (floatText x).toList := by
  cases x with
  | nan =>
    have htext : (floatText .nan).toList = ['N', 'a', 'N'] := by simp [floatText]
    rw [htext]
    exact ⟨⟨_, _, rfl, by decide⟩, List.all_eq_true.mp rfl⟩
  | infinite negative =>
    have htext : (floatText (.infinite negative)).toList = (if negative then ['-'] else [])
        ++ ['I', 'n', 'f', 'i', 'n', 'i', 't', 'y'] := by
      cases negative <;> simp [floatText]
    rw [htext]
    cases negative <;> exact ⟨⟨_, _, rfl, by decide⟩, List.all_eq_true.mp rfl⟩
  | finite negative m e =>
    obtain ⟨n, hn⟩ := exists_numeral_floatText negative m e
    obtain ⟨c, cs, hchars, hc⟩ := exists_digit_chars n
    have hcontinues := continuesNumber_of_mem_chars n
    rw [hn]
    cases negative with
    | false => exact ⟨⟨c, cs, hchars, beginsNumber_of_isDigit hc⟩, hcontinues⟩
    | true =>
      exact ⟨⟨'-', n.chars, rfl, by decide⟩, List.forall_mem_cons.mpr ⟨by decide, hcontinues⟩⟩

/-! ## Whole values -/

theorem endsLiteral_cons {c : Char} (h : continuesNumber c = false) (cs : List Char) :
    EndsLiteral (c :: cs) := by
  intro d hd
  rw [List.head?_cons, Option.mem_some_iff] at hd
  rwa [← hd]

theorem endsLiteral_blanks_append {ws cs : List Char} (h : Blanks ws) (hcs : EndsLiteral cs) :
    EndsLiteral (ws ++ cs) := by
  cases ws with
  | nil => exact hcs
  | cons c ws =>
    have hc := h c List.mem_cons_self
    rw [isSpace] at hc
    simp only [Bool.or_eq_true, beq_iff_eq] at hc
    rcases hc with ((rfl | rfl) | rfl) | rfl <;> exact endsLiteral_cons (by decide) _

/-- Characters outside of strings that belong to no number. -/
theorem quoteFrom_cons {c : Char} (hnumber : beginsNumber c = false) (hquote : c ≠ '"')
    (rest : List Char) : quoteFrom .outside (c :: rest) = c :: quoteFrom .outside rest := by
  rw [quoteFrom, hnumber, if_neg (by decide), if_neg hquote]

theorem quoteFrom_colon (layout : Layout) (rest : List Char) :
    quoteFrom .outside ((colon layout).toList ++ rest)
      = (colon layout).toList ++ quoteFrom .outside rest := by
  obtain ⟨ws, hws, hcolon⟩ := exists_blanks_colon layout
  rw [hcolon, List.cons_append, quoteFrom_cons (by decide) (by decide),
    quoteFrom_plain (plain_of_blanks hws), List.cons_append]

mutual

theorem quoteFrom_renderAt (style : Style) :
    ∀ (v : Json) (depth : Nat) (rest : List Char), EndsLiteral rest →
      quoteFrom .outside ((renderAt style depth v).toList ++ rest)
        = (renderAt style depth v.withLiterals).toList ++ quoteFrom .outside rest
  | .null, depth, rest, _ => quoteFrom_plain (by simp [renderAt]; decide) rest
  | .bool true, depth, rest, _ => quoteFrom_plain (by simp [renderAt]; decide) rest
  | .bool false, depth, rest, _ => quoteFrom_plain (by simp [renderAt]; decide) rest
  | .int n, depth, rest, hrest => by
    rw [renderAt, withLiterals, renderAt,
      quoteFrom_literal (isLiteral_toString n) style.ascii hrest]
  | .float x, depth, rest, hrest => by
    rw [renderAt, withLiterals, renderAt,
      quoteFrom_literal (isLiteral_floatText x) style.ascii hrest]
  | .str s, depth, rest, _ => by rw [withLiterals, renderAt, quoteFrom_quote]
  | .arr [], depth, rest, _ => quoteFrom_plain (by simp [renderAt]; decide) rest
  | .arr (v :: vs), depth, rest, _ => by
    obtain ⟨a, b, c, ha, hb, hc, hsep⟩ := exists_blanks_separators style.layout depth
    have htext (v : Json) (vs : List Json) (rest : List Char) :
        (renderAt style depth (.arr (v :: vs))).toList ++ rest
          = '[' :: (b ++ ((renderAt style (depth + 1) v).toList
            ++ ((renderItems style depth (String.ofList (',' :: a)) vs).toList
              ++ (c ++ ']' :: rest)))) := by
      simp [renderAt, hsep]
    obtain ⟨hends, hitems⟩ := quoteFrom_renderItems style vs depth a (c ++ ']' :: rest) ha
      (endsLiteral_blanks_append hc (endsLiteral_cons (by decide) rest))
    rw [withLiterals, withLiteralsItems, htext, htext, quoteFrom_cons (by decide) (by decide),
      quoteFrom_plain (plain_of_blanks hb), quoteFrom_renderAt style v (depth + 1) _ hends, hitems,
      quoteFrom_plain (plain_of_blanks hc), quoteFrom_cons (by decide) (by decide)]
  | .obj [], depth, rest, _ => quoteFrom_plain (by simp [renderAt]; decide) rest
  | .obj ((k, v) :: ms), depth, rest, _ => by
    obtain ⟨a, b, c, ha, hb, hc, hsep⟩ := exists_blanks_separators style.layout depth
    have htext (v : Json) (ms : List (String × Json)) (rest : List Char) :
        (renderAt style depth (.obj ((k, v) :: ms))).toList ++ rest
          = '\x7b' :: (b ++ ((quote style.ascii k).toList ++ ((colon style.layout).toList
            ++ ((renderAt style (depth + 1) v).toList
              ++ ((renderMembers style depth (String.ofList (',' :: a)) ms).toList
                ++ (c ++ '\x7d' :: rest)))))) := by
      simp [renderAt, hsep]
    obtain ⟨hends, hmembers⟩ := quoteFrom_renderMembers style ms depth a (c ++ '\x7d' :: rest) ha
      (endsLiteral_blanks_append hc (endsLiteral_cons (by decide) rest))
    rw [withLiterals, withLiteralsMembers, htext, htext, quoteFrom_cons (by decide) (by decide),
      quoteFrom_plain (plain_of_blanks hb), quoteFrom_quote, quoteFrom_colon,
      quoteFrom_renderAt style v (depth + 1) _ hends, hmembers,
      quoteFrom_plain (plain_of_blanks hc), quoteFrom_cons (by decide) (by decide)]

/-- Further items begin with a comma, which ends the number before them. -/
theorem quoteFrom_renderItems (style : Style) :
    ∀ (vs : List Json) (depth : Nat) (a rest : List Char), Blanks a → EndsLiteral rest →
      EndsLiteral ((renderItems style depth (String.ofList (',' :: a)) vs).toList ++ rest) ∧
      quoteFrom .outside ((renderItems style depth (String.ofList (',' :: a)) vs).toList ++ rest)
        = (renderItems style depth (String.ofList (',' :: a)) (withLiteralsItems vs)).toList
          ++ quoteFrom .outside rest
  | [], depth, a, rest, _, hrest => by simpa [renderItems, withLiteralsItems] using hrest
  | v :: vs, depth, a, rest, ha, hrest => by
    have htext (v : Json) (vs : List Json) (rest : List Char) :
        (renderItems style depth (String.ofList (',' :: a)) (v :: vs)).toList ++ rest
          = ',' :: (a ++ ((renderAt style (depth + 1) v).toList
            ++ ((renderItems style depth (String.ofList (',' :: a)) vs).toList ++ rest))) := by
      simp [renderItems]
    obtain ⟨hends, hitems⟩ := quoteFrom_renderItems style vs depth a rest ha hrest
    refine ⟨by rw [htext]; exact endsLiteral_cons (by decide) _, ?_⟩
    rw [withLiteralsItems, htext, htext, quoteFrom_cons (by decide) (by decide),
      quoteFrom_plain (plain_of_blanks ha), quoteFrom_renderAt style v (depth + 1) _ hends, hitems]

theorem quoteFrom_renderMembers (style : Style) :
    ∀ (ms : List (String × Json)) (depth : Nat) (a rest : List Char), Blanks a →
      EndsLiteral rest →
      EndsLiteral ((renderMembers style depth (String.ofList (',' :: a)) ms).toList ++ rest) ∧
      quoteFrom .outside ((renderMembers style depth (String.ofList (',' :: a)) ms).toList ++ rest)
        = (renderMembers style depth (String.ofList (',' :: a)) (withLiteralsMembers ms)).toList
          ++ quoteFrom .outside rest
  | [], depth, a, rest, _, hrest => by simpa [renderMembers, withLiteralsMembers] using hrest
  | (k, v) :: ms, depth, a, rest, ha, hrest => by
    have htext (v : Json) (ms : List (String × Json)) (rest : List Char) :
        (renderMembers style depth (String.ofList (',' :: a)) ((k, v) :: ms)).toList ++ rest
          = ',' :: (a ++ ((quote style.ascii k).toList ++ ((colon style.layout).toList
            ++ ((renderAt style (depth + 1) v).toList
              ++ ((renderMembers style depth (String.ofList (',' :: a)) ms).toList
                ++ rest))))) := by
      simp [renderMembers]
    obtain ⟨hends, hmembers⟩ := quoteFrom_renderMembers style ms depth a rest ha hrest
    refine ⟨by rw [htext]; exact endsLiteral_cons (by decide) _, ?_⟩
    rw [withLiteralsMembers, htext, htext, quoteFrom_cons (by decide) (by decide),
      quoteFrom_plain (plain_of_blanks ha), quoteFrom_quote, quoteFrom_colon,
      quoteFrom_renderAt style v (depth + 1) _ hends, hmembers]

end

/-- **Numbers are read as they are written**, in every style. -/
theorem parse?_quoteNumbers_render (style : Style) {v : Json} (hv : v.UniqueKeys) {ws : List Char}
    (hws : Blanks ws) :
    parse? (quoteNumbers (v.render style ++ String.ofList ws)) = some v.withLiterals := by
  obtain ⟨hkeys, hreread⟩ := reread_of_exact v.withLiterals (exact_withLiterals v hv)
  have hends : EndsLiteral ws := by
    have hnil : EndsLiteral [] := fun c hc ↦ absurd hc (by simp)
    simpa using endsLiteral_blanks_append hws hnil
  have hquoted : quoteNumbers (v.render style ++ String.ofList ws)
      = v.withLiterals.render style ++ String.ofList ws := by
    refine String.toList_inj.mp ?_
    have hblanks := quoteFrom_plain (plain_of_blanks hws) []
    rw [List.append_nil] at hblanks
    simp only [quoteNumbers, render, String.toList_append, String.toList_ofList,
      quoteFrom_renderAt style v 0 ws hends, hblanks]
    simp [quoteFrom]
  rw [hquoted, parse?_render_append style hkeys hws, hreread]

end QuantumRisk.Json

import QuantumRisk.Proofs.Json.Numerals

/-!
# JSON text can be read back

Reading undoes writing in every style, whether the text is indented or compact and whether or not it
escapes everything beyond ASCII: `parse?_render`. The statement is about *exact* values, which hold
no numbers in double precision and no object with a repeated key.

Numbers in double precision are read from their numerals, and `reread` is the value with these
numbers in their places. It does not depend on the style either: `parse?_render_reread`.

## What the induction is on

The reader works on the rest of the text, so the statement for a value is about its text followed by
anything that cannot continue a number. The induction follows the reader's own bound on nesting, not
the value. `cost` is a bound that suffices, and a text is never shorter than the cost of its value,
which is why the reader may take the length of the text for the bound.
-/

namespace QuantumRisk.Json

open Reader
open Number (Binary64)

/-! ## Exact values -/

mutual

/-- No number in double precision, and no key twice in an object. -/
def Exact : Json → Prop
  | .float _ => False
  | .arr items => ExactItems items
  | .obj members => (members.map (·.1)).Nodup ∧ ExactMembers members
  | _ => True

def ExactItems : List Json → Prop
  | [] => True
  | v :: vs => Exact v ∧ ExactItems vs

def ExactMembers : List (String × Json) → Prop
  | [] => True
  | (_, v) :: ms => Exact v ∧ ExactMembers ms

end

theorem exactMembers_iff {members : List (String × Json)} :
    ExactMembers members ↔ ∀ m ∈ members, m.2.Exact := by
  induction members with
  | nil => simp [ExactMembers]
  | cons m ms ih => simp [ExactMembers, ih]

mutual

/-- No key stands twice in an object. -/
def UniqueKeys : Json → Prop
  | .arr items => UniqueKeysItems items
  | .obj members => (members.map (·.1)).Nodup ∧ UniqueKeysMembers members
  | _ => True

def UniqueKeysItems : List Json → Prop
  | [] => True
  | v :: vs => UniqueKeys v ∧ UniqueKeysItems vs

def UniqueKeysMembers : List (String × Json) → Prop
  | [] => True
  | (_, v) :: ms => UniqueKeys v ∧ UniqueKeysMembers ms

end

/-- What is read from the text of a number in double precision. -/
def rereadFloat (x : Binary64) : Json :=
  ((value 1 (floatText x).toList).map (·.1)).getD .null

mutual

/-- The value with its numbers in double precision as they are read back. -/
def reread : Json → Json
  | .float x => rereadFloat x
  | .arr items => .arr (rereadItems items)
  | .obj members => .obj (rereadMembers members)
  | .null => .null
  | .bool b => .bool b
  | .int n => .int n
  | .str s => .str s

def rereadItems : List Json → List Json
  | [] => []
  | v :: vs => reread v :: rereadItems vs

def rereadMembers : List (String × Json) → List (String × Json)
  | [] => []
  | (k, v) :: ms => (k, reread v) :: rereadMembers ms

end

mutual

/-- Exact values are read back as they are. -/
theorem reread_of_exact : ∀ v : Json, v.Exact → v.UniqueKeys ∧ v.reread = v
  | .null, _ | .bool _, _ | .int _, _ | .str _, _ => ⟨trivial, rfl⟩
  | .float x, h => h.elim
  | .arr items, h => by
    obtain ⟨hkeys, hitems⟩ := rereadItems_of_exact items h
    exact ⟨hkeys, by rw [reread, hitems]⟩
  | .obj members, h => by
    obtain ⟨hkeys, hmembers⟩ := rereadMembers_of_exact members h.2
    exact ⟨⟨h.1, hkeys⟩, by rw [reread, hmembers]⟩

theorem rereadItems_of_exact : ∀ vs : List Json, ExactItems vs →
    UniqueKeysItems vs ∧ rereadItems vs = vs
  | [], _ => ⟨trivial, rfl⟩
  | v :: vs, h => by
    obtain ⟨hkeys, hv⟩ := reread_of_exact v h.1
    obtain ⟨hkeys', hvs⟩ := rereadItems_of_exact vs h.2
    exact ⟨⟨hkeys, hkeys'⟩, by rw [rereadItems, hv, hvs]⟩

theorem rereadMembers_of_exact : ∀ ms : List (String × Json), ExactMembers ms →
    UniqueKeysMembers ms ∧ rereadMembers ms = ms
  | [], _ => ⟨trivial, rfl⟩
  | (k, v) :: ms, h => by
    obtain ⟨hkeys, hv⟩ := reread_of_exact v h.1
    obtain ⟨hkeys', hms⟩ := rereadMembers_of_exact ms h.2
    exact ⟨⟨hkeys, hkeys'⟩, by rw [rereadMembers, hv, hms]⟩

end

mutual

/-- A bound on nesting that suffices to read a value. -/
def cost : Json → Nat
  | .arr items => 1 + costItems items
  | .obj members => 1 + costMembers members
  | _ => 1

def costItems : List Json → Nat
  | [] => 0
  | v :: vs => cost v + 1 + costItems vs

def costMembers : List (String × Json) → Nat
  | [] => 0
  | (_, v) :: ms => cost v + 1 + costMembers ms

end

theorem cost_pos (v : Json) : 0 < v.cost := by
  cases v <;> simp only [cost] <;> omega

theorem toList_toString_ofNat (n : Nat) : (toString (Int.ofNat n)).toList = Nat.toDigits 10 n := by
  rw [Int.toString_eq_repr, Int.repr, Nat.toList_repr]

theorem toList_toString_negSucc (n : Nat) :
    (toString (Int.negSucc n)).toList = '-' :: Nat.toDigits 10 (n + 1) := by
  rw [Int.toString_eq_repr, Int.repr, String.toList_append, Nat.toList_repr]
  rfl

mutual

/-- A text is at least as long as the cost of its value. -/
theorem cost_le_length (style : Style) :
    ∀ (v : Json) (depth : Nat), v.cost ≤ (renderAt style depth v).toList.length
  | .null, depth => by simp [cost, renderAt]
  | .bool b, depth => by cases b <;> simp [cost, renderAt]
  | .int (.ofNat n), depth => by
    simp only [cost, renderAt, toList_toString_ofNat]
    exact Nat.length_toDigits_pos
  | .int (.negSucc n), depth => by
    simp only [cost, renderAt, toList_toString_negSucc, List.length_cons]
    omega
  | .float x, depth => by
    simp only [cost, renderAt]
    exact length_floatText_pos x
  | .str s, depth => by simp [cost, renderAt, quote, quoteChars]
  | .arr [], depth => by simp [cost, costItems, renderAt]
  | .arr (v :: vs), depth => by
    obtain ⟨a, b, c, -, -, -, hsep⟩ := exists_blanks_separators style.layout depth
    have hv := cost_le_length style v (depth + 1)
    have hvs := costItems_le_length style vs depth a
    have hopen : "[".toList.length = 1 := rfl
    have hclose : "]".toList.length = 1 := rfl
    simp only [renderAt, hsep, cost, costItems, String.toList_append, List.length_append]
    omega
  | .obj [], depth => by simp [cost, costMembers, renderAt]
  | .obj ((k, v) :: ms), depth => by
    obtain ⟨a, b, c, -, -, -, hsep⟩ := exists_blanks_separators style.layout depth
    have hv := cost_le_length style v (depth + 1)
    have hms := costMembers_le_length style ms depth a
    have hopen : "\x7b".toList.length = 1 := rfl
    have hclose : "\x7d".toList.length = 1 := rfl
    simp only [renderAt, hsep, cost, costMembers, String.toList_append, List.length_append]
    omega

theorem costItems_le_length (style : Style) :
    ∀ (vs : List Json) (depth : Nat) (a : List Char),
      costItems vs ≤ (renderItems style depth (String.ofList (',' :: a)) vs).toList.length
  | [], depth, a => by simp [costItems]
  | v :: vs, depth, a => by
    have hv := cost_le_length style v (depth + 1)
    have hvs := costItems_le_length style vs depth a
    simp only [renderItems, costItems, String.toList_append, List.length_append,
      String.toList_ofList, List.length_cons]
    omega

theorem costMembers_le_length (style : Style) :
    ∀ (ms : List (String × Json)) (depth : Nat) (a : List Char),
      costMembers ms ≤ (renderMembers style depth (String.ofList (',' :: a)) ms).toList.length
  | [], depth, a => by simp [costMembers]
  | (k, v) :: ms, depth, a => by
    have hv := cost_le_length style v (depth + 1)
    have hms := costMembers_le_length style ms depth a
    simp only [renderMembers, costMembers, String.toList_append, List.length_append,
      String.toList_ofList, List.length_cons]
    omega

end

/-! ## Reading a value back -/

theorem value_digit {c : Char} (hc : c.isDigit = true) (fuel : Nat) (cs : List Char) :
    value (fuel + 1) (c :: cs) = unsigned false (c :: cs) := by
  have hspace : isSpace c = false := by
    by_contra h
    rw [Bool.not_eq_false, isSpace] at h
    simp only [Bool.or_eq_true, beq_iff_eq] at h
    rcases h with ((rfl | rfl) | rfl) | rfl <;> simp at hc
  rw [value, skipSpace_cons hspace]
  -- a digit is none of the characters that open the other kinds of values
  split
  · next h => rw [(List.cons.inj h).1] at hc; exact absurd hc (by decide)
  · next h => rw [(List.cons.inj h).1] at hc; exact absurd hc (by decide)
  · next h => rw [(List.cons.inj h).1] at hc; exact absurd hc (by decide)
  · next h => rw [(List.cons.inj h).1] at hc; exact absurd hc (by decide)
  · next h =>
    obtain ⟨rfl, rfl⟩ := List.cons.inj h
    rw [if_pos hc]
  · next h => exact absurd h (List.cons_ne_nil c cs)

theorem endsNumber_blanks_append {ws : List Char} (h : Blanks ws) {cs : List Char}
    (hcs : EndsNumber cs) : EndsNumber (ws ++ cs) := by
  cases ws with
  | nil => exact hcs
  | cons c ws =>
    have hc := h c List.mem_cons_self
    rw [isSpace] at hc
    simp only [Bool.or_eq_true, beq_iff_eq] at hc
    rcases hc with ((rfl | rfl) | rfl) | rfl <;>
      exact endsNumber_cons (by decide) (by decide) (by decide) (by decide)

/-- A new key goes behind the others. -/
theorem put_eq_append {key : String} {value : Json} {members : List (String × Json)}
    (h : key ∉ members.map (·.1)) : Json.put key value members = members ++ [(key, value)] := by
  induction members with
  | nil => rfl
  | cons m ms ih =>
    rw [List.map_cons, List.mem_cons, not_or] at h
    rw [put, if_neg (by simpa using fun he ↦ h.1 he.symm), ih h.2, List.cons_append]

theorem expect_append (text : String) (rest : List Char) :
    expect text (text.toList ++ rest) = some rest := by
  rw [expect, if_pos (by simp), ← String.length_toList, List.drop_left]

theorem expect_infinity_digit {c : Char} (hc : c.isDigit = true) (cs : List Char) :
    expect "Infinity" (c :: cs) = none := by
  have hne : c ≠ 'I' := by
    rintro rfl
    exact absurd hc (by decide)
  simp [expect, hne.symm]

/-- No value begins with a closing bracket. -/
theorem skipSpace_ne_close {fuel : Nat} {cs : List Char} {r : Json × List Char}
    (h : value fuel cs = some r) (left : List Char) : skipSpace cs ≠ ']' :: left := by
  intro hskip
  cases fuel with
  | zero => simp [value] at h
  | succ fuel => simp [value, hskip] at h

theorem value_toString_int (fuel : Nat) (n : Int) {rest : List Char} (hrest : EndsNumber rest) :
    value (fuel + 1) ((toString n).toList ++ rest) = some (.int n, rest) := by
  have hdigit : ∀ {m : Nat} {c : Char} {cs : List Char}, Nat.toDigits 10 m = c :: cs →
      c.isDigit = true := fun h ↦
    Nat.isDigit_of_mem_toDigits (by decide) (by decide) (h ▸ List.mem_cons_self)
  cases n with
  | ofNat n =>
    have hread := unsigned_toDigits false n hrest
    rw [toList_toString_ofNat]
    cases hds : Nat.toDigits 10 n with
    | nil => exact absurd hds Nat.toDigits_ne_nil
    | cons c cs =>
      rw [hds] at hread
      rw [List.cons_append, value_digit (hdigit hds)]
      exact hread
  | negSucc n =>
    have hread := unsigned_toDigits true (n + 1) hrest
    rw [toList_toString_negSucc, List.cons_append, value, skipSpace_cons (by decide)]
    cases hds : Nat.toDigits 10 (n + 1) with
    | nil => exact absurd hds Nat.toDigits_ne_nil
    | cons c cs =>
      rw [hds, List.cons_append] at hread
      simp only [List.cons_append, expect_infinity_digit (hdigit hds)]
      exact hread

theorem exists_value_floatText (x : Binary64) : ∃ v, ∀ (fuel : Nat) {rest : List Char},
    EndsNumber rest → value (fuel + 1) ((floatText x).toList ++ rest) = some (v, rest) := by
  cases x with
  | nan =>
    refine ⟨.float .nan, fun fuel rest _ ↦ ?_⟩
    have htext : (floatText .nan).toList ++ rest = 'N' :: ("aN".toList ++ rest) := by
      simp [floatText]
    rw [htext, value, skipSpace_cons (by decide)]
    exact congrArg (Option.map (Prod.mk (Json.float .nan))) (expect_append "aN" rest)
  | infinite negative =>
    refine ⟨.float (.infinite negative), fun fuel rest _ ↦ ?_⟩
    cases negative with
    | false =>
      have htext : (floatText (.infinite false)).toList ++ rest
          = 'I' :: ("nfinity".toList ++ rest) := by
        simp [floatText]
      rw [htext, value, skipSpace_cons (by decide)]
      exact congrArg (Option.map (Prod.mk (Json.float (.infinite false))))
        (expect_append "nfinity" rest)
    | true =>
      have htext : (floatText (.infinite true)).toList ++ rest
          = '-' :: ("Infinity".toList ++ rest) := by
        simp [floatText]
      rw [htext, value, skipSpace_cons (by decide)]
      simp only [expect_append]
  | finite negative m e =>
    obtain ⟨n, hn⟩ := exists_numeral_floatText negative m e
    obtain ⟨c, cs, hchars, hc⟩ := exists_digit_chars n
    refine ⟨.float (n.number negative), fun fuel rest hrest ↦ ?_⟩
    have hread := unsigned_chars n negative hrest
    rw [hchars, List.cons_append] at hread
    rw [hn, hchars]
    cases negative with
    | false => exact (value_digit hc fuel (cs ++ rest)).trans hread
    | true =>
      rw [if_pos rfl, List.append_assoc, List.singleton_append, value, skipSpace_cons (by decide)]
      simp only [List.cons_append, expect_infinity_digit hc]
      exact hread

theorem value_floatText (fuel : Nat) (x : Binary64) {rest : List Char} (hrest : EndsNumber rest) :
    value (fuel + 1) ((floatText x).toList ++ rest) = some (rereadFloat x, rest) := by
  obtain ⟨v, hv⟩ := exists_value_floatText x
  have hread := hv 0 endsNumber_nil
  rw [List.append_nil] at hread
  rw [rereadFloat, hread]
  exact hv fuel hrest

/-- A key or a string in front of anything is read up to its closing quote. -/
theorem value_quote (fuel : Nat) (ascii : Bool) (s : String) (rest : List Char) :
    value (fuel + 1) ((quote ascii s).toList ++ rest) = some (.str s, rest) := by
  rw [toList_quote_append, value, skipSpace_cons (by decide)]
  simp [stringBody_flatMap_escapeChar]

/-! ### One step of the reader -/

theorem value_array {fuel : Nat} {cs left : List Char} {vs : List Json}
    (hopen : ∀ l, skipSpace cs ≠ ']' :: l) (h : items fuel cs = some (vs, left)) :
    value (fuel + 1) ('[' :: cs) = some (.arr vs, left) := by
  rw [value, skipSpace_cons (by decide)]
  simp only
  rw [h]
  rfl

theorem value_object {fuel : Nat} {cs left : List Char} {ms : List (String × Json)}
    (hopen : ∀ l, skipSpace cs ≠ '\x7d' :: l) (h : members fuel cs [] = some (ms, left)) :
    value (fuel + 1) ('\x7b' :: cs) = some (.obj ms, left) := by
  rw [value, skipSpace_cons (by decide)]
  simp only
  rw [h]
  rfl

theorem items_last {fuel : Nat} {cs rest left : List Char} {v : Json}
    (hv : value fuel cs = some (v, rest)) (hclose : skipSpace rest = ']' :: left) :
    items (fuel + 1) cs = some ([v], left) := by
  rw [items, hv]
  simp [hclose]

theorem items_next {fuel : Nat} {cs rest rest' left : List Char} {v : Json} {vs : List Json}
    (hv : value fuel cs = some (v, rest)) (hcomma : skipSpace rest = ',' :: rest')
    (hvs : items fuel rest' = some (vs, left)) :
    items (fuel + 1) cs = some (v :: vs, left) := by
  rw [items, hv]
  simp [hcomma, hvs]

/-- A key, a colon and a value put a member behind those before. -/
theorem members_succ {fuel : Nat} {ascii : Bool} {layout : Layout} {k : String} {v : Json}
    {b cs rest : List Char} {before : List (String × Json)} (hb : Blanks b)
    (hk : k ∉ before.map (·.1)) (hv : value fuel cs = some (v, rest)) :
    members (fuel + 1) (b ++ ((quote ascii k).toList ++ ((colon layout).toList ++ cs))) before
      = match skipSpace rest with
        | ',' :: rest' => members fuel rest' (before ++ [(k, v)])
        | '\x7d' :: left => some (before ++ [(k, v)], left)
        | _ => none := by
  obtain ⟨ws, hws, hcolon⟩ := exists_blanks_colon layout
  rw [members, skipSpace_append hb, toList_quote_append, skipSpace_cons (by decide)]
  simp only [stringBody_flatMap_escapeChar, Option.bind_eq_bind, Option.bind_some, hcolon,
    List.cons_append, skipSpace_cons (show isSpace ':' = false by decide),
    value_blanks_append hws, hv, String.ofList_toList, put_eq_append hk]
  rfl

/-! ### Whole values -/

/-- A list of items does not begin with a closing bracket. -/
theorem skipSpace_ne_close_of_items {fuel : Nat} {cs : List Char} {r : List Json × List Char}
    (h : items fuel cs = some r) (left : List Char) : skipSpace cs ≠ ']' :: left := by
  cases fuel with
  | zero => simp [items] at h
  | succ fuel =>
    cases hv : value fuel cs with
    | none => simp [items, hv] at h
    | some u => exact skipSpace_ne_close hv left

theorem notMem_keys_of_nodup {k : String} {v : Json} {before ms : List (String × Json)}
    (h : ((before ++ (k, v) :: ms).map (·.1)).Nodup) : k ∉ before.map (·.1) := by
  rw [List.map_append, List.map_cons, List.nodup_append] at h
  intro hk
  exact h.2.2 k hk k List.mem_cons_self rfl

mutual

/-- The text of a value, in front of anything that does not continue a number, is read as that value
and nothing more. -/
theorem value_renderAt (style : Style) :
    ∀ (v : Json) (depth fuel : Nat) (rest : List Char), v.UniqueKeys → v.cost ≤ fuel + 1 →
      EndsNumber rest →
      value (fuel + 1) ((renderAt style depth v).toList ++ rest) = some (v.reread, rest)
  | .null, depth, fuel, rest, _, _, _ => by
    have htext : (renderAt style depth .null).toList ++ rest = 'n' :: ("ull".toList ++ rest) := by
      simp [renderAt]
    rw [htext, value, skipSpace_cons (by decide)]
    exact congrArg (Option.map (Prod.mk Json.null)) (expect_append "ull" rest)
  | .bool true, depth, fuel, rest, _, _, _ => by
    have htext : (renderAt style depth (.bool true)).toList ++ rest
        = 't' :: ("rue".toList ++ rest) := by
      simp [renderAt]
    rw [htext, value, skipSpace_cons (by decide)]
    exact congrArg (Option.map (Prod.mk (Json.bool true))) (expect_append "rue" rest)
  | .bool false, depth, fuel, rest, _, _, _ => by
    have htext : (renderAt style depth (.bool false)).toList ++ rest
        = 'f' :: ("alse".toList ++ rest) := by
      simp [renderAt]
    rw [htext, value, skipSpace_cons (by decide)]
    exact congrArg (Option.map (Prod.mk (Json.bool false))) (expect_append "alse" rest)
  | .int n, depth, fuel, rest, _, _, hrest => by
    rw [renderAt, value_toString_int fuel n hrest, reread]
  | .float x, depth, fuel, rest, _, _, hrest => by
    rw [renderAt, value_floatText fuel x hrest, reread]
  | .str s, depth, fuel, rest, _, _, _ => by rw [renderAt, value_quote, reread]
  | .arr [], depth, fuel, rest, _, _, _ => by
    simp [renderAt, value, skipSpace, isSpace, reread, rereadItems]
  | .arr (v :: vs), depth, 0, rest, _, hfuel, _ => by
    rw [cost, costItems] at hfuel
    omega
  | .arr (v :: vs), depth, fuel + 1, rest, hv, hfuel, _ => by
    obtain ⟨a, b, c, ha, hb, hc, hsep⟩ := exists_blanks_separators style.layout depth
    have htext : (renderAt style depth (.arr (v :: vs))).toList ++ rest
        = '[' :: (b ++ ((renderAt style (depth + 1) v).toList
          ++ ((renderItems style depth (String.ofList (',' :: a)) vs).toList
            ++ (c ++ ']' :: rest)))) := by
      simp [renderAt, hsep]
    rw [cost] at hfuel
    have hitems := items_renderItems style v vs depth fuel a b c rest hv.1 hv.2 (by omega) ha hb hc
    rw [htext]
    exact value_array (skipSpace_ne_close_of_items hitems) hitems
  | .obj [], depth, fuel, rest, _, _, _ => by
    simp [renderAt, value, skipSpace, isSpace, reread, rereadMembers]
  | .obj ((k, v) :: ms), depth, 0, rest, _, hfuel, _ => by
    rw [cost, costMembers] at hfuel
    omega
  | .obj ((k, v) :: ms), depth, fuel + 1, rest, hv, hfuel, _ => by
    obtain ⟨a, b, c, ha, hb, hc, hsep⟩ := exists_blanks_separators style.layout depth
    have htext : (renderAt style depth (.obj ((k, v) :: ms))).toList ++ rest
        = '\x7b' :: (b ++ ((quote style.ascii k).toList ++ ((colon style.layout).toList
          ++ ((renderAt style (depth + 1) v).toList
            ++ ((renderMembers style depth (String.ofList (',' :: a)) ms).toList
              ++ (c ++ '\x7d' :: rest)))))) := by
      simp [renderAt, hsep]
    rw [cost] at hfuel
    have hmembers := members_renderMembers style k v ms [] depth fuel a b c rest hv.1 hv.2.1 hv.2.2
      (by omega) ha hb hc
    rw [htext]
    refine value_object (fun l hl ↦ ?_) hmembers
    rw [skipSpace_append hb, toList_quote_append, skipSpace_cons (by decide)] at hl
    exact absurd (List.cons.inj hl).1 (by decide)
termination_by _ _ fuel => fuel

theorem items_renderItems (style : Style) :
    ∀ (v : Json) (vs : List Json) (depth fuel : Nat) (a b c rest : List Char), v.UniqueKeys →
      UniqueKeysItems vs → costItems (v :: vs) ≤ fuel + 1 → Blanks a → Blanks b → Blanks c →
      items (fuel + 1) (b ++ ((renderAt style (depth + 1) v).toList
        ++ ((renderItems style depth (String.ofList (',' :: a)) vs).toList ++ (c ++ ']' :: rest))))
        = some (rereadItems (v :: vs), rest)
  | v, vs, depth, 0, a, b, c, rest, _, _, hfuel, _, _, _ => by
    have := cost_pos v
    rw [costItems] at hfuel
    omega
  | v, [], depth, fuel + 1, a, b, c, rest, hv, _, hfuel, ha, hb, hc => by
    rw [costItems, costItems] at hfuel
    have hclose : EndsNumber (c ++ ']' :: rest) := endsNumber_blanks_append hc
      (endsNumber_cons (by decide) (by decide) (by decide) (by decide))
    have hread := value_renderAt style v (depth + 1) fuel (c ++ ']' :: rest) hv (by omega) hclose
    rw [← value_blanks_append hb] at hread
    rw [renderItems, String.toList_empty, List.nil_append]
    exact items_last hread (by rw [skipSpace_append hc, skipSpace_cons (by decide)])
  | v, v' :: vs, depth, fuel + 1, a, b, c, rest, hv, hvs, hfuel, ha, hb, hc => by
    rw [costItems] at hfuel
    have hnext :=
      items_renderItems style v' vs depth fuel a a c rest hvs.1 hvs.2 (by omega) ha ha hc
    have hread := value_renderAt style v (depth + 1) fuel (',' :: (a
        ++ ((renderAt style (depth + 1) v').toList
          ++ ((renderItems style depth (String.ofList (',' :: a)) vs).toList
            ++ (c ++ ']' :: rest)))))
      hv (by omega) (endsNumber_cons (by decide) (by decide) (by decide) (by decide))
    rw [← value_blanks_append hb] at hread
    have htext : (renderItems style depth (String.ofList (',' :: a)) (v' :: vs)).toList
        ++ (c ++ ']' :: rest) = ',' :: (a ++ ((renderAt style (depth + 1) v').toList
          ++ ((renderItems style depth (String.ofList (',' :: a)) vs).toList
            ++ (c ++ ']' :: rest)))) := by
      simp [renderItems]
    rw [htext]
    exact items_next hread (skipSpace_cons (by decide) _) hnext
termination_by _ _ _ fuel => fuel

theorem members_renderMembers (style : Style) :
    ∀ (k : String) (v : Json) (ms before : List (String × Json)) (depth fuel : Nat)
      (a b c rest : List Char), ((before ++ (k, v) :: ms).map (·.1)).Nodup → v.UniqueKeys →
      UniqueKeysMembers ms → costMembers ((k, v) :: ms) ≤ fuel + 1 →
      Blanks a → Blanks b → Blanks c →
      members (fuel + 1) (b ++ ((quote style.ascii k).toList ++ ((colon style.layout).toList
        ++ ((renderAt style (depth + 1) v).toList
          ++ ((renderMembers style depth (String.ofList (',' :: a)) ms).toList
            ++ (c ++ '\x7d' :: rest)))))) before
        = some (before ++ rereadMembers ((k, v) :: ms), rest)
  | k, v, ms, before, depth, 0, a, b, c, rest, _, _, _, hfuel, _, _, _ => by
    have := cost_pos v
    rw [costMembers] at hfuel
    omega
  | k, v, [], before, depth, fuel + 1, a, b, c, rest, hkeys, hv, _, hfuel, ha, hb, hc => by
    rw [costMembers, costMembers] at hfuel
    have hclose : EndsNumber (c ++ '\x7d' :: rest) := endsNumber_blanks_append hc
      (endsNumber_cons (by decide) (by decide) (by decide) (by decide))
    have hread := value_renderAt style v (depth + 1) fuel (c ++ '\x7d' :: rest) hv (by omega) hclose
    rw [renderMembers, String.toList_empty, List.nil_append,
      members_succ hb (notMem_keys_of_nodup hkeys) hread, skipSpace_append hc,
      skipSpace_cons (by decide)]
    rfl
  | k, v, (k', v') :: ms, before, depth, fuel + 1, a, b, c, rest, hkeys, hv, hms, hfuel, ha, hb,
      hc => by
    rw [costMembers] at hfuel
    have hnext := members_renderMembers style k' v' ms (before ++ [(k, v.reread)]) depth fuel a a c
      rest (by simpa using hkeys) hms.1 hms.2 (by omega) ha ha hc
    have hread := value_renderAt style v (depth + 1) fuel (',' :: (a
        ++ ((quote style.ascii k').toList ++ ((colon style.layout).toList
          ++ ((renderAt style (depth + 1) v').toList
            ++ ((renderMembers style depth (String.ofList (',' :: a)) ms).toList
              ++ (c ++ '\x7d' :: rest)))))))
      hv (by omega) (endsNumber_cons (by decide) (by decide) (by decide) (by decide))
    have htext : (renderMembers style depth (String.ofList (',' :: a)) ((k', v') :: ms)).toList
        ++ (c ++ '\x7d' :: rest) = ',' :: (a ++ ((quote style.ascii k').toList
          ++ ((colon style.layout).toList ++ ((renderAt style (depth + 1) v').toList
            ++ ((renderMembers style depth (String.ofList (',' :: a)) ms).toList
              ++ (c ++ '\x7d' :: rest)))))) := by
      simp [renderMembers]
    rw [htext, members_succ hb (notMem_keys_of_nodup hkeys) hread, skipSpace_cons (by decide)]
    simp only [hnext, List.append_assoc, List.singleton_append, rereadMembers]
termination_by _ _ _ _ _ fuel => fuel

end

/-- A text may have blanks behind it. -/
theorem parse?_render_append (style : Style) {v : Json} (hv : v.UniqueKeys) {ws : List Char}
    (hws : Blanks ws) : parse? (v.render style ++ String.ofList ws) = some v.reread := by
  have hcost := cost_le_length style v 0
  have hread := value_renderAt style v 0 (render style v ++ String.ofList ws).toList.length ws hv
    (by simp only [render, String.toList_append, List.length_append]; omega)
    (by simpa using endsNumber_blanks_append hws endsNumber_nil)
  have hskip : skipSpace ws = [] := by
    rw [← List.append_nil ws, skipSpace_append hws]
    rfl
  rw [parse?]
  simp only [render, String.toList_append, String.toList_ofList] at hread ⊢
  simp only [hread, hskip]
  rfl

/-- **Every style is read alike**: what is read depends on the value alone. -/
theorem parse?_render_reread (style : Style) {v : Json} (hv : v.UniqueKeys) :
    parse? (v.render style) = some v.reread := by
  have hnil : Blanks [] := fun c hc ↦ absurd hc List.not_mem_nil
  simpa using parse?_render_append style hv hnil

/-- **Reading undoes writing**, in every style. -/
theorem parse?_render (style : Style) {v : Json} (hv : v.Exact) :
    parse? (v.render style) = some v := by
  obtain ⟨hkeys, hreread⟩ := reread_of_exact v hv
  rw [parse?_render_reread style hkeys, hreread]

end QuantumRisk.Json

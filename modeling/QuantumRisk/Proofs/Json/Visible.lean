import QuantumRisk.Proofs.Json.RoundTrip

/-!
# What JSON text is made of

Which characters the text of an exact value may hold depends on the style. There are line feeds only
if it is laid out in lines, and characters beyond ASCII only if the style leaves them as they are;
there is no other control character in any style. Inside quotes all of them are escaped, and outside
there are only punctuation, words, digits and blanks. In particular the text holds no carriage
return, so that a text file gives it back as it was written.
-/

namespace QuantumRisk.Json

/-- A character that a JSON text may hold: a line feed, or none of the control characters. -/
def Visible (c : Char) : Prop := c = '\n' ∨ 0x20 ≤ c.toNat

/-- A character that a text in a style may hold. -/
def Style.Writes (style : Style) (c : Char) : Prop :=
  (c = '\n' ∧ style.layout = .indented) ∨
    (0x20 ≤ c.toNat ∧ (style.ascii = true → c.toNat < 0x7f))

variable {style : Style}

theorem Style.Writes.visible {c : Char} (h : style.Writes c) : Visible c :=
  h.imp And.left And.left

theorem Style.writes_of_printable {c : Char} (h : 0x20 ≤ c.toNat ∧ c.toNat < 0x7f) :
    style.Writes c := .inr ⟨h.1, fun _ ↦ h.2⟩

/-- Words and punctuation are written as they are. -/
theorem writes_literal (s : String) (h : ∀ c ∈ s.toList, 0x20 ≤ c.toNat ∧ c.toNat < 0x7f) :
    ∀ c ∈ s.toList, style.Writes c := fun c hc ↦ Style.writes_of_printable (h c hc)

theorem printable_escapeUnit {n : Nat} :
    ∀ c ∈ escapeUnit n, 0x20 ≤ c.toNat ∧ c.toNat < 0x7f := by
  have hdigit : ∀ n < 16, 0x20 ≤ (hexDigit n).toNat ∧ (hexDigit n).toNat < 0x7f := by decide
  intro c hc
  simp only [escapeUnit, List.mem_cons, List.not_mem_nil, or_false] at hc
  rcases hc with rfl | rfl | rfl | rfl | rfl | rfl
  · decide
  · decide
  all_goals exact hdigit _ (by omega)

theorem writes_escapeChar (d : Char) : ∀ c ∈ escapeChar style.ascii d, style.Writes c := by
  have hpair : ∀ {e : Char}, 0x20 ≤ e.toNat ∧ e.toNat < 0x7f → ∀ c ∈ ['\\', e],
      style.Writes c := by
    intro e he c hc
    simp only [List.mem_cons, List.not_mem_nil, or_false] at hc
    rcases hc with rfl | rfl
    · exact Style.writes_of_printable (by decide)
    · exact Style.writes_of_printable he
  intro c hc
  unfold escapeChar at hc
  split at hc
  · exact hpair (by decide) c hc
  split at hc
  · exact hpair (by decide) c hc
  split at hc
  · exact hpair (by decide) c hc
  split at hc
  · exact hpair (by decide) c hc
  split at hc
  · exact hpair (by decide) c hc
  split at hc
  · exact hpair (by decide) c hc
  split at hc
  · exact hpair (by decide) c hc
  split at hc
  · exact Style.writes_of_printable (printable_escapeUnit c hc)
  split at hc
  · split at hc
    · exact Style.writes_of_printable (printable_escapeUnit c hc)
    · rcases List.mem_append.mp hc with hc | hc
      · exact Style.writes_of_printable (printable_escapeUnit c hc)
      · exact Style.writes_of_printable (printable_escapeUnit c hc)
  · -- a character that is left as it is
    next hcontrol hbeyond =>
    rw [List.mem_singleton] at hc
    subst hc
    refine .inr ⟨by omega, fun hascii ↦ ?_⟩
    simpa [hascii] using hbeyond

theorem writes_quote (s : String) : ∀ c ∈ (quote style.ascii s).toList, style.Writes c := by
  intro c hc
  rw [quote, String.toList_ofList, quoteChars, List.mem_cons, List.mem_append, List.mem_flatMap,
    List.mem_singleton] at hc
  rcases hc with rfl | ⟨d, -, hd⟩ | rfl
  · exact Style.writes_of_printable (by decide)
  · exact writes_escapeChar d c hd
  · exact Style.writes_of_printable (by decide)

theorem writes_toString_int (n : Int) : ∀ c ∈ (toString n).toList, style.Writes c := by
  have hdigits : ∀ m, ∀ c ∈ Nat.toDigits 10 m, style.Writes c := by
    intro m c hc
    have hc := Nat.isDigit_of_mem_toDigits (by decide) (by decide) hc
    simp only [Char.isDigit, Bool.and_eq_true, decide_eq_true_eq] at hc
    have h48 : 48 ≤ c.toNat := hc.1
    have h57 : c.toNat ≤ 57 := hc.2
    exact Style.writes_of_printable (by omega)
  cases n with
  | ofNat n =>
    rw [toList_toString_ofNat]
    exact hdigits n
  | negSucc n =>
    rw [toList_toString_negSucc]
    intro c hc
    rcases List.mem_cons.mp hc with rfl | hc
    · exact Style.writes_of_printable (by decide)
    · exact hdigits (n + 1) c hc

theorem writes_colon : ∀ c ∈ (colon style.layout).toList, style.Writes c := by
  cases hlayout : style.layout with
  | compact => exact writes_literal ":" (by simp)
  | spaced => exact writes_literal ": " (by simp)
  | indented => exact writes_literal ": " (by simp)

/-- The separators of every layout, taken together. -/
theorem writes_separators (style : Style) (depth : Nat) :
    (∀ c ∈ (separators style.layout depth).1.toList, style.Writes c)
      ∧ (∀ c ∈ (separators style.layout depth).2.1.toList, style.Writes c)
      ∧ ∀ c ∈ (separators style.layout depth).2.2.toList, style.Writes c := by
  cases hlayout : style.layout with
  | compact => exact ⟨writes_literal "," (by simp), by simp [separators], by simp [separators]⟩
  | spaced => exact ⟨writes_literal ", " (by simp), by simp [separators], by simp [separators]⟩
  | indented =>
    have hline : ∀ d, ∀ c ∈ ("\n" ++ String.ofList (List.replicate (2 * d) ' ')).toList,
        style.Writes c := by
      intro d c hc
      simp at hc
      rcases hc with rfl | ⟨-, rfl⟩
      · exact .inl ⟨rfl, hlayout⟩
      · exact Style.writes_of_printable (by decide)
    refine ⟨?_, hline (depth + 1), hline depth⟩
    intro c hc
    rw [separators, String.toList_append, List.mem_append] at hc
    rcases hc with hc | hc
    · exact writes_literal "," (by simp) c hc
    · exact hline (depth + 1) c hc

mutual

/-- The text of an exact value holds only what its style writes. -/
theorem writes_renderAt :
    ∀ (v : Json) (depth : Nat), v.Exact → ∀ c ∈ (renderAt style depth v).toList, style.Writes c
  | .null, depth, _ => by
    rw [renderAt]
    exact writes_literal "null" (by simp)
  | .bool b, depth, _ => by
    rw [renderAt]
    cases b with
    | true => exact writes_literal "true" (by simp)
    | false => exact writes_literal "false" (by simp)
  | .int n, depth, _ => by
    rw [renderAt]
    exact writes_toString_int n
  | .float x, depth, h => h.elim
  | .str s, depth, _ => by
    rw [renderAt]
    exact writes_quote s
  | .arr [], depth, _ => by
    rw [renderAt]
    exact writes_literal "[]" (by simp)
  | .arr (v :: vs), depth, h => by
    obtain ⟨hbetween, hbefore, hbehind⟩ := writes_separators style depth
    have hv := writes_renderAt v (depth + 1) h.1
    have hvs := writes_renderItems vs depth _ h.2 hbetween
    simp only [renderAt, String.toList_append, List.forall_mem_append]
    exact ⟨⟨⟨⟨⟨writes_literal "[" (by simp), hbefore⟩, hv⟩, hvs⟩, hbehind⟩,
      writes_literal "]" (by simp)⟩
  | .obj [], depth, _ => by
    rw [renderAt]
    exact writes_literal "\x7b\x7d" (by simp)
  | .obj ((k, v) :: ms), depth, h => by
    obtain ⟨hbetween, hbefore, hbehind⟩ := writes_separators style depth
    have hv := writes_renderAt v (depth + 1) h.2.1
    have hms := writes_renderMembers ms depth _ h.2.2 hbetween
    simp only [renderAt, String.toList_append, List.forall_mem_append]
    exact ⟨⟨⟨⟨⟨⟨⟨writes_literal "\x7b" (by simp), hbefore⟩, writes_quote k⟩, writes_colon⟩, hv⟩,
      hms⟩, hbehind⟩, writes_literal "\x7d" (by simp)⟩

theorem writes_renderItems :
    ∀ (vs : List Json) (depth : Nat) (between : String), ExactItems vs →
      (∀ c ∈ between.toList, style.Writes c) →
      ∀ c ∈ (renderItems style depth between vs).toList, style.Writes c
  | [], depth, between, _, _ => by simp [renderItems]
  | v :: vs, depth, between, h, hbetween => by
    have hv := writes_renderAt v (depth + 1) h.1
    have hvs := writes_renderItems vs depth between h.2 hbetween
    simp only [renderItems, String.toList_append, List.forall_mem_append]
    exact ⟨⟨hbetween, hv⟩, hvs⟩

theorem writes_renderMembers :
    ∀ (ms : List (String × Json)) (depth : Nat) (between : String), ExactMembers ms →
      (∀ c ∈ between.toList, style.Writes c) →
      ∀ c ∈ (renderMembers style depth between ms).toList, style.Writes c
  | [], depth, between, _, _ => by simp [renderMembers]
  | (k, v) :: ms, depth, between, h, hbetween => by
    have hv := writes_renderAt v (depth + 1) h.1
    have hms := writes_renderMembers ms depth between h.2 hbetween
    simp only [renderMembers, String.toList_append, List.forall_mem_append]
    exact ⟨⟨⟨⟨hbetween, writes_quote k⟩, writes_colon⟩, hv⟩, hms⟩

end

/-- No carriage return is ever written, so line ends are read as they were written. -/
theorem carriageReturn_notMem_render (style : Style) {v : Json} (hv : v.Exact) :
    '\r' ∉ (v.render style).toList := by
  intro h
  rcases (writes_renderAt v 0 hv '\r' h).visible with h | h
  · exact absurd h (by decide)
  · exact absurd h (by decide)

/-- A log line is one line of printable ASCII. -/
theorem printable_render_log {v : Json} (hv : v.Exact) :
    ∀ c ∈ (v.render .log).toList, 0x20 ≤ c.toNat ∧ c.toNat < 0x7f := by
  intro c hc
  rcases writes_renderAt v 0 hv c hc with ⟨-, hlayout⟩ | ⟨hcontrol, hascii⟩
  · cases hlayout
  · exact ⟨hcontrol, hascii rfl⟩

end QuantumRisk.Json

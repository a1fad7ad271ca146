import Mathlib
import QuantumRisk.Proofs.Path
import QuantumRisk.Store.Token

/-!
# Report names

The name of a report begins with its token in a fixed number of digits, as long as the token has no
more. Names of such tokens are compared as texts in the order in which the tokens are compared as
numbers, since the first digit that differs decides both. With more digits the order is lost, but a
name still tells its token: the digits are read back whatever zeros stand before them. A name is
plain if the suffix has no slash, whatever the token is.
-/

namespace QuantumRisk.Store

variable {suffix : String} {width m n : Nat} {t u : Int} {c : Char}

/-! ## Digits -/

/-- The last digits of a number, in a fixed width. -/
def figures : Nat → Nat → List Char
  | 0, _ => []
  | width + 1, n => figures width (n / 10) ++ [(n % 10).digitChar]

theorem length_figures (width n : Nat) : (figures width n).length = width := by
  induction width generalizing n with
  | zero => rfl
  | succ width ih => rw [figures, List.length_append, ih, List.length_singleton]

theorem digitChar_lt {a b : Nat} (h : a < b) (hb : b < 10) : a.digitChar < b.digitChar := by
  have key : ∀ b : Fin 10, ∀ a : Fin 10, a.val < b.val → a.val.digitChar < b.val.digitChar := by
    decide
  exact key ⟨b, hb⟩ ⟨a, Nat.lt_trans h hb⟩ h

/-- Texts of one length that differ stay in order whatever follows them. -/
theorem append_lt_append {a b : List Char} (hlength : a.length = b.length) (h : a < b)
    (c d : List Char) : a ++ c < b ++ d := by
  induction a generalizing b with
  | nil =>
    obtain rfl := List.length_eq_zero_iff.mp hlength.symm
    exact absurd h (List.not_lt_nil _)
  | cons x a ih =>
    cases b with
    | nil => cases hlength
    | cons y b =>
      rw [List.cons_lt_cons_iff] at h
      rw [List.cons_append, List.cons_append, List.cons_lt_cons_iff]
      rcases h with hxy | ⟨hxy, hab⟩
      · exact .inl hxy
      · exact .inr ⟨hxy, ih (Nat.succ.inj hlength) hab⟩

theorem figures_lt (h : m < n) (hn : n < 10 ^ width) :
    figures width m < figures width n := by
  induction width generalizing m n with
  | zero => omega
  | succ width ih =>
    rw [figures, figures]
    rw [Nat.pow_succ] at hn
    rcases Nat.lt_or_ge (m / 10) (n / 10) with hlt | hge
    · refine append_lt_append ?_ (ih hlt (by omega)) _ _
      rw [length_figures, length_figures]
    · have heq : m / 10 = n / 10 := by omega
      rw [heq]
      refine List.append_left_lt ?_
      rw [List.cons_lt_cons_iff]
      exact .inl (digitChar_lt (by omega) (by omega))

theorem replicate_append_toDigits (h : n < 10 ^ (width + 1)) :
    List.replicate (width + 1 - (Nat.toDigits 10 n).length) '0' ++ Nat.toDigits 10 n
      = figures (width + 1) n := by
  induction width generalizing n with
  | zero =>
    have hn : n < 10 := by simpa using h
    rw [Nat.toDigits_of_lt_base hn, figures, figures, Nat.mod_eq_of_lt hn]
    rfl
  | succ width ih =>
    rw [Nat.pow_succ] at h
    rw [figures, ← ih (by omega)]
    rcases Nat.lt_or_ge n 10 with hn | hn
    · have hzero : n / 10 = 0 := by omega
      rw [Nat.toDigits_of_lt_base hn, hzero, Nat.toDigits_zero, Nat.mod_eq_of_lt hn]
      simp [List.replicate_succ']
    · rw [Nat.toDigits_of_base_le (by decide) hn]
      simp [List.length_append]

/-! ## Numbers with leading zeros -/

theorem toList_padded (h : 0 ≤ t) (width : Nat) :
    (padded width t).toList = List.replicate (width - (Nat.toDigits 10 t.natAbs).length) '0'
      ++ Nat.toDigits 10 t.natAbs := by
  rw [padded, String.toList_ofList, if_neg (Int.not_lt.mpr h)]
  rfl

theorem padded_of_neg (h : t < 0) (width : Nat) :
    padded width t = "-" ++ padded (width - 1) (-t) := by
  have hrest := toList_padded (show 0 ≤ -t by omega) (width - 1)
  rw [← String.toList_inj, String.toList_append, hrest, padded, String.toList_ofList, if_pos h,
    Int.natAbs_neg]
  rfl

theorem isDigit_of_mem_padded (h : 0 ≤ t) (hc : c ∈ (padded width t).toList) :
    c.isDigit = true := by
  rw [toList_padded h, List.mem_append] at hc
  rcases hc with hzero | hdigit
  · rw [List.eq_of_mem_replicate hzero]
    rfl
  · exact Nat.isDigit_of_mem_toDigits (by decide) (by decide) hdigit

theorem mem_padded (h : c ∈ (padded width t).toList) : c = '-' ∨ c.isDigit = true := by
  rcases lt_or_ge t 0 with ht | ht
  · rw [padded_of_neg ht, String.toList_append, List.mem_append] at h
    rcases h with hsign | hrest
    · exact .inl (List.mem_singleton.mp hsign)
    · exact .inr (isDigit_of_mem_padded (by omega) hrest)
  · exact .inr (isDigit_of_mem_padded ht h)

theorem minus_mem_padded_iff : '-' ∈ (padded width t).toList ↔ t < 0 := by
  constructor
  · intro h
    by_contra hnonneg
    exact absurd (isDigit_of_mem_padded (not_lt.mp hnonneg) h) (by decide)
  · intro h
    rw [padded_of_neg h, String.toList_append]
    exact List.mem_cons_self

theorem ofDigitChars_padded (h : 0 ≤ t) (width : Nat) :
    Nat.ofDigitChars 10 (padded width t).toList 0 = t.natAbs := by
  rw [toList_padded h, Nat.ofDigitChars_append, Nat.ofDigitChars_replicate_zero, Nat.mul_zero,
    Nat.ofDigitChars_ten_toDigits]

theorem eq_of_padded_eq (ht : 0 ≤ t) (hu : 0 ≤ u) (h : padded width t = padded width u) :
    t = u := by
  have hvalue := ofDigitChars_padded ht width
  rw [h, ofDigitChars_padded hu] at hvalue
  omega

/-- No two numbers look the same, even if they do not fit in the width. -/
theorem padded_injective (width : Nat) : Function.Injective (padded width) := by
  intro t u h
  -- digits alone do not tell a number from its negative, so the signs are compared first
  have hsign : t < 0 ↔ u < 0 := by
    rw [← minus_mem_padded_iff, h, minus_mem_padded_iff]
  rcases lt_or_ge t 0 with ht | ht
  · rw [padded_of_neg ht, padded_of_neg (hsign.mp ht), String.append_right_inj] at h
    have hflipped := eq_of_padded_eq (by omega) (by omega) h
    omega
  · exact eq_of_padded_eq ht (by omega) h

theorem slash_notMem_padded (width : Nat) (t : Int) : '/' ∉ (padded width t).toList := fun h ↦
  absurd (mem_padded h) (by decide)

theorem length_padded_ge (width : Nat) (t : Int) : width ≤ (padded width t).toList.length := by
  rw [padded, String.toList_ofList, List.length_append, List.length_append, List.length_replicate]
  omega

theorem utf8Size_of_mem_padded (h : c ∈ (padded width t).toList) : c.utf8Size = 1 := by
  rw [Char.utf8Size_eq_one_iff]
  rcases mem_padded h with rfl | hdigit
  · decide
  · simp only [Char.isDigit, Bool.and_eq_true, decide_eq_true_eq] at hdigit
    exact UInt32.le_trans hdigit.2 (by decide)

theorem utf8Len_eq_length {cs : List Char} (h : ∀ c ∈ cs, c.utf8Size = 1) :
    String.utf8Len cs = cs.length := by
  induction cs with
  | nil => rfl
  | cons c cs ih =>
    rw [String.utf8Len_cons, h c List.mem_cons_self,
      ih fun d hd ↦ h d (List.mem_cons_of_mem c hd), List.length_cons]

theorem toList_padded_tokenWidth (h : 0 ≤ t) (ht : t < 10 ^ tokenWidth) :
    (padded tokenWidth t).toList = figures tokenWidth t.toNat := by
  have hbound : t.natAbs < 10 ^ (12 + 1) := by
    rw [tokenWidth] at ht
    omega
  rw [toList_padded h, tokenWidth, replicate_append_toDigits hbound, ← Int.natAbs_of_nonneg h]
  rfl

/-! ## Names -/

/-- The name of a token in range has its digits in front. -/
theorem toList_reportName (h : 0 ≤ t) (ht : t < 10 ^ tokenWidth) (suffix : String) :
    (reportName t suffix).toList = figures tokenWidth t.toNat ++ suffix.toList := by
  rw [reportName, String.toList_append, toList_padded_tokenWidth h ht]

/-- **Names sort as their tokens do.** -/
theorem reportName_lt (h : 0 ≤ t) (htu : t < u) (hu : u < 10 ^ tokenWidth) (suffix : String) :
    reportName t suffix < reportName u suffix := by
  rw [String.lt_iff, toList_reportName h (by omega), toList_reportName (by omega) hu]
  refine append_lt_append ?_ (figures_lt ?_ ?_) _ _
  · rw [length_figures, length_figures]
  · omega
  · rw [tokenWidth] at hu ⊢
    omega

theorem reportName_lt_iff (ht : 0 ≤ t) (ht' : t < 10 ^ tokenWidth) (hu : 0 ≤ u)
    (hu' : u < 10 ^ tokenWidth) (suffix : String) :
    reportName t suffix < reportName u suffix ↔ t < u := by
  refine ⟨fun h ↦ ?_, fun h ↦ reportName_lt ht h hu' suffix⟩
  by_contra hnot
  rcases lt_or_eq_of_le (not_lt.mp hnot) with hlt | rfl
  · exact String.lt_asymm h (reportName_lt hu hlt ht' suffix)
  · exact String.lt_irrefl _ h

theorem reportName_injective (suffix : String) : Function.Injective (reportName · suffix) := by
  intro t u h
  exact padded_injective tokenWidth ((String.append_left_inj suffix).mp h)

/-- **Names stand for their tokens**, whatever the suffix: names of tokens with at most thirteen
digits are ordered by code points as the tokens are by size, and no two tokens of any size have the
same name. -/
theorem reportName_reflects_tokens (suffix : String) :
    (∀ a b : Int, 0 ≤ a → a < 10 ^ 13 → 0 ≤ b → b < 10 ^ 13 →
      (reportName a suffix < reportName b suffix ↔ a < b)) ∧
    Function.Injective (reportName · suffix) :=
  ⟨fun _ _ ha ha' hb hb' ↦ reportName_lt_iff ha ha' hb hb' suffix, reportName_injective suffix⟩

/-- Without its zeros the greater token would come first, and the suffix begins with a digit. -/
theorem reportName_reflects_tokens_thousand :
    ((0 : Int) ≤ 1000 ∧ (1000 : Int) < 10 ^ 13 ∧ (0 : Int) ≤ 999 ∧ (999 : Int) < 10 ^ 13) ∧
      (reportName 1000 "9.json" < reportName 999 "9.json" ↔ (1000 : Int) < 999) ∧
      reportName 999 "9.json" ≠ reportName 9999999999999999 "9.json" := by
  obtain ⟨hlt, hinjective⟩ := reportName_reflects_tokens "9.json"
  exact ⟨by decide, hlt 1000 999 (by decide) (by decide) (by decide) (by decide),
    hinjective.ne (by decide)⟩

-- With the fourteenth digit the order is lost.
example : reportName (10 ^ 13) defaultSuffix < reportName (10 ^ 13 - 1) defaultSuffix := by
  decide +kernel

/-- The name of a token in range has one byte for each digit. -/
theorem utf8ByteSize_reportName (h : 0 ≤ t) (ht : t < 10 ^ tokenWidth) (suffix : String) :
    (reportName t suffix).utf8ByteSize = tokenWidth + suffix.utf8ByteSize := by
  have hlength := utf8Len_eq_length fun c (hc : c ∈ (padded tokenWidth t).toList) ↦
    utf8Size_of_mem_padded hc
  rw [← String.utf8ByteSize_ofList, String.ofList_toList, toList_padded_tokenWidth h ht,
    length_figures] at hlength
  rw [reportName, String.utf8ByteSize_append, hlength]

/-- A report name is one that a directory can hold. -/
theorem plain_reportName (h : '/' ∉ suffix.toList) (t : Int) :
    Path.Plain (reportName t suffix) := by
  have hlength : tokenWidth ≤ (reportName t suffix).toList.length := by
    have := length_padded_ge tokenWidth t
    rw [reportName, String.toList_append, List.length_append]
    omega
  -- too long to be empty, a dot or two dots
  have hne : ∀ {short : String}, short.toList.length < tokenWidth →
      reportName t suffix ≠ short := by
    rintro short hshort rfl
    omega
  refine ⟨hne (by decide), hne (by decide), hne (by decide), ?_⟩
  rw [reportName, String.toList_append, List.mem_append, not_or]
  exact ⟨slash_notMem_padded tokenWidth t, h⟩

end QuantumRisk.Store

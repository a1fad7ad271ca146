import QuantumRisk.Text.Lines
import QuantumRisk.Text.Utf8

/-!
# Texts survive the disk

A text goes to the disk as bytes and comes back through two steps: decoding, and the writing of all
line ends as line feeds. Decoding undoes encoding for every text, `decode_encode`. The second step
changes exactly the texts with a carriage return, so a writer that never emits one gets its text
back unchanged.

The decoder checks more than it needs to invert the encoder: the first continuation byte lies in a
range that depends on the lead byte. That a character is never a surrogate and never lies beyond the
last code point is what keeps the encoder inside those ranges.
-/

namespace QuantumRisk.Text

/-! ## Single characters -/

theorem toNat_lt (c : Char) : c.toNat < 0x110000 := by
  rcases c.valid with h | h
  · exact Nat.lt_trans h (by decide)
  · exact h.2

theorem toNat_lt_or_gt_surrogates (c : Char) : c.toNat < 0xD800 ∨ 0xDFFF < c.toNat := by
  rcases c.valid with h | h
  · exact .inl h
  · exact .inr h.1

private theorem toNat_ofNat_of_lt {n : Nat} (h : n < 256) : (UInt8.ofNat n).toNat = n := by
  rw [UInt8.toNat_ofNat']
  exact Nat.mod_eq_of_lt h

/-- A byte in range continues a character. -/
theorem continued_cons {count low high bits b : Nat} {rest : List UInt8} (hb : b < 256)
    (hlow : low ≤ b) (hhigh : b ≤ high) :
    continued (count + 1) low high bits (UInt8.ofNat b :: rest)
      = continued count 0x80 0xBF (bits * 64 + (b - 0x80)) rest := by
  rw [continued, toNat_ofNat_of_lt hb, if_pos ⟨hlow, hhigh⟩]

theorem pieces_cons_of_lead {b n count low high bits : Nat} {bs rest : List UInt8} (hb : b < 256)
    (hl : lead? b = some ⟨count, low, high, bits⟩)
    (h : continued count low high bits bs = (.ok n, rest)) :
    pieces (UInt8.ofNat b :: bs) = .ok (Char.ofNat n) :: pieces rest := by
  rw [pieces, toNat_ofNat_of_lt hb, hl]
  simp only [h, Except.map]

/-- The bytes of a code point decode to it, whatever follows them. -/
theorem pieces_encodeNat_append {n : Nat} (hn : n < 0x110000) (hs : n < 0xD800 ∨ 0xDFFF < n)
    (rest : List UInt8) :
    pieces ((encodeNat n).map UInt8.ofNat ++ rest) = .ok (Char.ofNat n) :: pieces rest := by
  -- one case for each number of bytes; the bounds on `n` put every byte into the decoder's range
  unfold encodeNat
  split
  · next h1 =>
    refine pieces_cons_of_lead (by omega) (by rw [lead?, if_pos h1]) ?_
    simp [continued]
  split
  · simp only [List.map_cons, List.map_nil, List.cons_append, List.nil_append]
    refine pieces_cons_of_lead (by omega)
      (by rw [lead?, if_neg (by omega), if_neg (by omega), if_pos (by omega)]) ?_
    rw [continued_cons (by omega) (by omega) (by omega), continued,
      show (0xC0 + n / 64 - 0xC0) * 64 + (0x80 + n % 64 - 0x80) = n by omega]
  split
  · simp only [List.map_cons, List.map_nil, List.cons_append, List.nil_append]
    refine pieces_cons_of_lead (by omega)
      (by rw [lead?, if_neg (by omega), if_neg (by omega), if_neg (by omega), if_pos (by omega)]) ?_
    rw [continued_cons (by omega) (by split <;> omega) (by split <;> omega),
      continued_cons (by omega) (by omega) (by omega), continued,
      show ((0xE0 + n / 4096 - 0xE0) * 64 + (0x80 + n / 64 % 64 - 0x80)) * 64
        + (0x80 + n % 64 - 0x80) = n by omega]
  · simp only [List.map_cons, List.map_nil, List.cons_append, List.nil_append]
    refine pieces_cons_of_lead (by omega)
      (by rw [lead?, if_neg (by omega), if_neg (by omega), if_neg (by omega), if_neg (by omega),
        if_pos (by omega)]) ?_
    rw [continued_cons (by omega) (by split <;> omega) (by split <;> omega),
      continued_cons (by omega) (by omega) (by omega),
      continued_cons (by omega) (by omega) (by omega), continued,
      show (((0xF0 + n / 262144 - 0xF0) * 64 + (0x80 + n / 4096 % 64 - 0x80)) * 64
        + (0x80 + n / 64 % 64 - 0x80)) * 64 + (0x80 + n % 64 - 0x80) = n by omega]

theorem pieces_encodeChar_append (c : Char) (rest : List UInt8) :
    pieces (encodeChar c ++ rest) = .ok c :: pieces rest := by
  rw [encodeChar, pieces_encodeNat_append (toNat_lt c) (toNat_lt_or_gt_surrogates c),
    Char.ofNat_toNat]

/-! ## Whole texts -/

theorem pieces_flatMap_encodeChar (cs : List Char) :
    pieces (cs.flatMap encodeChar) = cs.map .ok := by
  induction cs with
  | nil => rw [List.flatMap_nil, pieces, List.map_nil]
  | cons c cs ih => rw [List.flatMap_cons, pieces_encodeChar_append, ih, List.map_cons]

private theorem mapM_id_map_ok (cs : List Char) :
    (cs.map (.ok : Char → Except Utf8Fault Char)).mapM id = .ok cs := by
  induction cs with
  | nil => rfl
  | cons c cs ih =>
    rw [List.map_cons, List.mapM_cons, ih]
    rfl

/-- Every text can be read back from its bytes. -/
theorem decode_encode (s : String) : decode (encode s) = .ok s := by
  rw [decode, encode, pieces_flatMap_encodeChar, mapM_id_map_ok, Except.map, String.ofList_toList]

/-! ## Line ends -/

theorem unifyLineEnds_eq_self {cs : List Char} (h : '\r' ∉ cs) : unifyLineEnds cs = cs := by
  fun_induction unifyLineEnds cs with
  | case1 => rfl
  | case2 rest ih => exact absurd List.mem_cons_self h
  | case3 rest _ ih => exact absurd List.mem_cons_self h
  | case4 c rest _ _ ih => rw [ih fun hm ↦ h (List.mem_cons_of_mem c hm)]

/-- A text without carriage returns is loaded as it is. -/
theorem unified_eq_self {s : String} (h : '\r' ∉ s.toList) : unified s = s := by
  rw [unified, unifyLineEnds_eq_self h, String.ofList_toList]

end QuantumRisk.Text

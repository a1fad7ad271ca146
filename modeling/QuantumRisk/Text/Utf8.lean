/-!
# Text as bytes

Text is kept on disk in UTF-8. Decoding goes character by character: a lead byte says how many bytes
follow, and which range the first of them lies in, so that overlong forms, surrogates and numbers
beyond the last code point never decode. Where bytes do not fit, decoding notes a fault and goes on
behind the bytes that fitted.
-/

namespace QuantumRisk.Text

/-- What is wrong with a byte sequence. -/
inductive Utf8Fault where
  /-- A byte that begins no character. -/
  | start
  /-- A byte that does not continue the character before it. -/
  | continuation
  /-- The bytes end within a character. -/
  | ended
  deriving DecidableEq, Inhabited, Repr

def Utf8Fault.message : Utf8Fault → String
  | .start => "invalid start byte"
  | .continuation => "invalid continuation byte"
  | .ended => "unexpected end of data"

/-! ## Encoding -/

/-- The bytes of a code point. -/
def encodeNat (n : Nat) : List Nat :=
  if n < 0x80 then [n]
  else if n < 0x800 then [0xC0 + n / 64, 0x80 + n % 64]
  else if n < 0x10000 then [0xE0 + n / 4096, 0x80 + n / 64 % 64, 0x80 + n % 64]
  else [0xF0 + n / 262144, 0x80 + n / 4096 % 64, 0x80 + n / 64 % 64, 0x80 + n % 64]

def encodeChar (c : Char) : List UInt8 := (encodeNat c.toNat).map UInt8.ofNat

/-- The bytes of a text. -/
def encode (s : String) : List UInt8 := s.toList.flatMap encodeChar

/-! ## Decoding -/

/-- What a lead byte announces. -/
structure Lead where
  /-- The number of bytes that follow. -/
  count : Nat
  /-- The least value of the first of them. -/
  low : Nat
  /-- The greatest value of the first of them. -/
  high : Nat
  /-- The bits of the character that the lead byte holds. -/
  bits : Nat

/-- The meaning of a byte as a lead byte, if it has one. -/
def lead? (b : Nat) : Option Lead :=
  if b < 0x80 then some ⟨0, 0x80, 0xBF, b⟩
  else if b < 0xC2 then none
  else if b < 0xE0 then some ⟨1, 0x80, 0xBF, b - 0xC0⟩
  else if b < 0xF0 then
    some ⟨2, if b = 0xE0 then 0xA0 else 0x80, if b = 0xED then 0x9F else 0xBF, b - 0xE0⟩
  else if b < 0xF5 then
    some ⟨3, if b = 0xF0 then 0x90 else 0x80, if b = 0xF4 then 0x8F else 0xBF, b - 0xF0⟩
  else none

/-- Read `count` more bytes, the first of them between `low` and `high`, and the rest behind those
that fitted. -/
def continued (count low high bits : Nat) (bs : List UInt8) :
    Except Utf8Fault Nat × List UInt8 :=
  match count, bs with
  | 0, bs => (.ok bits, bs)
  | _ + 1, [] => (.error .ended, [])
  | n + 1, b :: rest =>
    if low ≤ b.toNat ∧ b.toNat ≤ high then
      continued n 0x80 0xBF (bits * 64 + (b.toNat - 0x80)) rest
    else (.error .continuation, b :: rest)

theorem length_continued_le (count low high bits : Nat) (bs : List UInt8) :
    (continued count low high bits bs).2.length ≤ bs.length := by
  induction count generalizing low high bits bs with
  | zero => simp [continued]
  | succ n ih =>
    cases bs with
    | nil => simp [continued]
    | cons b rest =>
      simp only [continued]
      split
      · exact Nat.le_trans (ih ..) (by simp)
      · simp

/-- The characters of a byte sequence, with the faults between them. -/
def pieces (bs : List UInt8) : List (Except Utf8Fault Char) :=
  match bs with
  | [] => []
  | b :: rest =>
    match lead? b.toNat with
    | none => .error .start :: pieces rest
    | some l =>
      let next := continued l.count l.low l.high l.bits rest
      next.1.map Char.ofNat :: pieces next.2
termination_by bs.length
decreasing_by
  · simp
  · exact Nat.lt_succ_of_le (length_continued_le ..)

/-- The text of a byte sequence, or its first fault. -/
def decode (bs : List UInt8) : Except Utf8Fault String :=
  ((pieces bs).mapM id).map String.ofList

/-- The text of a byte sequence, with a replacement character for each fault. -/
def decodeLossy (bs : List UInt8) : String :=
  String.ofList ((pieces bs).map fun
    | .ok c => c
    | .error _ => '�')

end QuantumRisk.Text

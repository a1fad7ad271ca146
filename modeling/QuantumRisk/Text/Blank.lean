import QuantumRisk.Text.Quoted

/-!
# Blanks

The white space of all scripts, with the four separators below the ASCII blank.
-/

namespace QuantumRisk.Text

/-- The ranges of blanks. -/
def blankRanges : List (Nat × Nat) :=
  [(0x09, 0x0d), (0x1c, 0x20), (0x85, 0x85), (0xa0, 0xa0), (0x1680, 0x1680), (0x2000, 0x200a),
    (0x2028, 0x2029), (0x202f, 0x202f), (0x205f, 0x205f), (0x3000, 0x3000)]

/-- Is this white space? -/
def isBlank (c : Char) : Bool := blankRanges.any fun (a, b) ↦ a ≤ c.toNat && c.toNat ≤ b

/-- The text without the blanks at both ends. -/
def strip (s : String) : String :=
  String.ofList ((s.toList.dropWhile isBlank).reverse.dropWhile isBlank).reverse

/-- Is there nothing but blanks? -/
def isBlankText (s : String) : Bool := s.toList.all isBlank

end QuantumRisk.Text

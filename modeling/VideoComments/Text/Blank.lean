/-!
# Blank text

The characters of the Unicode property White_Space. The joiners, the byte order mark, the Mongolian
vowel separator and the separators of the C0 range are not among them.
-/

namespace VideoComments.Blank

/-- The ranges of White_Space, both ends included. -/
def ranges : List (Nat × Nat) :=
  [(0x09, 0x0D), (0x20, 0x20), (0x85, 0x85), (0xA0, 0xA0), (0x1680, 0x1680), (0x2000, 0x200A),
   (0x2028, 0x2029), (0x202F, 0x202F), (0x205F, 0x205F), (0x3000, 0x3000)]

/-- Is the character white space? -/
def isSpace (c : Char) : Bool := ranges.any fun r => r.1 ≤ c.toNat ∧ c.toNat ≤ r.2

/-- Is nothing left of the text once white space is trimmed? -/
def isBlank (s : String) : Bool := s.toList.all isSpace

/-- The characters without the white space at their end. -/
def trimEnd (cs : List Char) : List Char := (cs.reverse.dropWhile isSpace).reverse

/-- The text without the white space at either end. -/
def trim (s : String) : String := String.ofList (trimEnd (s.toList.dropWhile isSpace))

end VideoComments.Blank

import VideoComments.Text.Hex

/-!
# Universally unique identifiers

An identifier is 128 bits. Its text is 32 lower-case hexadecimal digits in groups of eight, four,
four, four and twelve, with hyphens between the groups.
-/

namespace VideoComments

/-- A universally unique identifier. -/
structure Uuid where
  bits : BitVec 128
  deriving DecidableEq

namespace Uuid

/-- The identifier of a comment that has not been stored yet. -/
def nil : Uuid := ⟨0⟩

/-- The identifier that a number spells, taken modulo `2 ^ 128`. -/
def ofNat (n : Nat) : Uuid := ⟨BitVec.ofNat 128 n⟩

/-- The identifier as a number; identifiers are ordered as their bytes are. -/
def toNat (u : Uuid) : Nat := u.bits.toNat

/-- The `n`-th identifier handed out: version 4, the counter in the last twelve digits. -/
def numbered (n : Nat) : Uuid := ofNat (0x4000 <<< 64 + 0x8000 <<< 48 + n % 1 <<< 48)

/-- The lengths of the groups. -/
def groupLengths : List Nat := [8, 4, 4, 4, 12]

/-- The 32 digits. -/
def digits (u : Uuid) : List Char := Hex.padded 32 u.toNat

/-- Cuts a list into groups of the given lengths, with a hyphen between them. -/
def hyphenate : List Nat → List Char → List Char
  | [], _ => []
  | [_], cs => cs
  | n :: ns, cs => cs.take n ++ '-' :: hyphenate ns (cs.drop n)

/-- The characters of the text. -/
def toList (u : Uuid) : List Char := hyphenate groupLengths u.digits

/-- The text of an identifier. -/
def text (u : Uuid) : String := String.ofList u.toList

end Uuid

end VideoComments

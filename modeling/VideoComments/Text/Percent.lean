import VideoComments.Text.Hex
import VideoComments.Text.Utf8

/-!
# Percent-encoding

A byte that may not stand for itself is written as a percent sign and two upper-case digits. Which
bytes stand for themselves is the caller's choice.
-/

namespace VideoComments.Percent

/-- One byte, escaped unless it is kept. -/
def encodeByte (keep : UInt8 → Bool) (b : UInt8) : List Char :=
  if keep b then [Char.ofNat b.toNat]
  else ['%', Hex.upperDigitChar (b.toNat / 16), Hex.upperDigitChar (b.toNat % 16)]

/-- A string with the UTF-8 bytes that are not kept escaped. -/
def encode (keep : UInt8 → Bool) (s : String) : List Char :=
  (Utf8.encode s).flatMap (encodeByte keep)

/-- The bytes of a text in which a percent sign and two digits stand for a byte. A percent sign
without two digits after it stands for itself. -/
def decode : List UInt8 → List UInt8
  | 0x25 :: a :: b :: rest =>
    match Hex.digit? (Char.ofNat a.toNat), Hex.digit? (Char.ofNat b.toNat) with
    | some x, some y => UInt8.ofNat (16 * x + y) :: decode rest
    | _, _ => 0x25 :: decode (a :: b :: rest)
  | c :: rest => c :: decode rest
  | [] => []
termination_by bytes => bytes.length

/-- The bytes that a percent-encoded text stands for. -/
def decodeChars (cs : List Char) : List UInt8 := decode (Utf8.encode (String.ofList cs))

end VideoComments.Percent

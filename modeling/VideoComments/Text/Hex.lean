/-!
# Hexadecimal digits

Digits of either case are read; lower case is written, and upper case in percent-encodings. Byte
strings are written as two digits a byte.
-/

namespace VideoComments.Hex

/-- The value of a hexadecimal digit of either case. -/
def digit? (c : Char) : Option Nat :=
  if '0' ≤ c ∧ c ≤ '9' then some (c.toNat - '0'.toNat)
  else if 'a' ≤ c ∧ c ≤ 'f' then some (c.toNat - 'a'.toNat + 10)
  else if 'A' ≤ c ∧ c ≤ 'F' then some (c.toNat - 'A'.toNat + 10)
  else none

/-- Is the character a hexadecimal digit? -/
def isDigit (c : Char) : Bool := (digit? c).isSome

/-- The lower-case character of a digit below sixteen. -/
def digitChar (d : Nat) : Char :=
  if d < 10 then Char.ofNat ('0'.toNat + d) else Char.ofNat ('a'.toNat + (d - 10))

/-- The upper-case character of a digit below sixteen. -/
def upperDigitChar (d : Nat) : Char :=
  if d < 10 then Char.ofNat ('0'.toNat + d) else Char.ofNat ('A'.toNat + (d - 10))

/-- The number that a list of digit values spells, most significant first. -/
def ofDigits (ds : List Nat) : Nat := ds.foldl (fun n d => 16 * n + d) 0

/-- The digits of a natural number, most significant first and without leading zeros. -/
def digits (n : Nat) : List Char :=
  if n < 16 then [digitChar n] else digits (n / 16) ++ [digitChar (n % 16)]
termination_by n

/-- The lowest `width` digits of a number, leading zeros included. -/
def padded (width n : Nat) : List Char :=
  (List.range width).map fun i => digitChar (n >>> (4 * (width - 1 - i)) % 16)

/-! ## Byte strings -/

/-- Two digits for each byte. -/
def ofBytes (bytes : List UInt8) : List Char := bytes.flatMap fun b => padded 2 b.toNat

/-- Reads two digits for each byte. -/
def bytes? : List Char → Option (List UInt8)
  | [] => some []
  | a :: b :: cs =>
    match digit? a, digit? b, bytes? cs with
    | some x, some y, some rest => some (UInt8.ofNat (16 * x + y) :: rest)
    | _, _, _ => none
  | [_] => none

end VideoComments.Hex

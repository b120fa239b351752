/-!
# Decimal numbers

Naturals and integers in base ten, as they appear in cache keys, counters, ports and settings.

* `digits` and `signedDigits` write a number in its one canonical form: no leading zero, no plus
  sign.
* `natural?` and `integer?` read any run of digits, leading zeros included; `integer?` takes a sign
  of either kind.
* `canonical?` reads only what `signedDigits` writes.
* `bounded` reads a natural with an optional plus sign and says which character, or which excess,
  comes first.
-/

namespace VideoComments.Decimal

/-! ## Digits -/

/-- The value of a decimal digit. -/
def digit? (c : Char) : Option Nat :=
  if '0' ≤ c ∧ c ≤ '9' then some (c.toNat - '0'.toNat) else none

/-- Is the character one of the ten digits? -/
def isDigit (c : Char) : Bool := (digit? c).isSome

/-- The character of a digit below ten. -/
def digitChar (d : Nat) : Char := Char.ofNat ('0'.toNat + d)

/-! ## Writing -/

/-- The digits of a natural number, most significant first and without leading zeros. -/
def digits (n : Nat) : List Char :=
  if n < 10 then [digitChar n] else digits (n / 10) ++ [digitChar (n % 10)]
termination_by n

/-- The digits of an integer, behind a minus sign when it is negative. -/
def signedDigits : Int → List Char
  | .ofNat n => digits n
  | .negSucc n => '-' :: digits (n + 1)

/-- The text of a natural number. -/
def ofNat (n : Nat) : String := String.ofList (digits n)

/-- The text of an integer. -/
def ofInt (i : Int) : String := String.ofList (signedDigits i)

/-! ## Reading -/

/-- Reads every character as a further digit of `value`. -/
def extend? (value : Nat) : List Char → Option Nat
  | [] => some value
  | c :: cs =>
    match digit? c with
    | some d => extend? (10 * value + d) cs
    | none => none

/-- Reads a non-empty run of digits. -/
def natural? : List Char → Option Nat
  | [] => none
  | cs => extend? 0 cs

/-- Reads a non-empty run of digits behind an optional sign. -/
def integer? : List Char → Option Int
  | '-' :: cs => (natural? cs).map fun n => -(n : Int)
  | '+' :: cs => (natural? cs).map fun n => (n : Int)
  | cs => (natural? cs).map fun n => (n : Int)

/-- Does an integer fit in 64 bits, one of them the sign? -/
def fitsInt64 (i : Int) : Bool := Int64.minValue.toInt ≤ i ∧ i ≤ Int64.maxValue.toInt

/-- Reads an integer of 64 bits. -/
def int64? (cs : List Char) : Option Int := (integer? cs).filter fitsInt64

/-- Reads an integer of 64 bits that is written in its canonical form. -/
def canonical? (cs : List Char) : Option Int :=
  (int64? cs).filter fun i => signedDigits i = cs

/-! ## Bounded naturals -/

/-- Why a text is not a natural number below a bound. -/
inductive Fault
  | invalidDigit
  | tooLarge
  deriving DecidableEq, Repr

namespace Fault

/-- The wording of a fault. -/
def message : Fault → String
  | invalidDigit => "invalid digit found in string"
  | tooLarge => "number too large to fit in target type"

end Fault

/-- Reads further digits of `value`; the first character that is no digit, or that carries the value
past `limit`, decides the fault. -/
def extendBounded (limit value : Nat) : List Char → Except Fault Nat
  | [] => .ok value
  | c :: cs =>
    match digit? c with
    | none => .error .invalidDigit
    | some d =>
      if 10 * value + d ≤ limit then extendBounded limit (10 * value + d) cs else .error .tooLarge

/-- Reads a natural number of at most `limit`, which may carry a plus sign. -/
def bounded (limit : Nat) : List Char → Except Fault Nat
  | [] => .error .invalidDigit
  | ['+'] => .error .invalidDigit
  | '+' :: cs => extendBounded limit 0 cs
  | cs => extendBounded limit 0 cs

end VideoComments.Decimal

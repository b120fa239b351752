import VideoComments.Text.Decimal

/-!
# Double-precision numbers

Every finite number of double precision is a whole multiple of the least positive one, `2 ^ -1074`.
Numbers are kept in that unit, so that order and sums are those of the integers and rounding is the
only approximation. A negative zero is not told from zero: no sum that starts at zero ends at it.

* `Double.ofQuotient` rounds a quotient to the nearest number, a tie going to the even neighbour.
* `Double.add` adds, `Double.le` compares; nothing compares with `nan`.
* `Double.ofText?` reads decimal notation, exponents, infinities and `nan`.
-/

namespace VideoComments

/-- A number of double precision; a finite one counts multiples of `2 ^ -1074`. -/
inductive Double
  | nan
  | infinite (negative : Bool)
  | finite (units : Int)
  deriving DecidableEq

namespace Double

/-! ## Rounding -/

/-- How many units make one. -/
def one : Nat := 1 <<< 1074

/-- The number of binary digits of a natural number. -/
def bitLength (n : Nat) : Nat := if n = 0 then 0 else n.log2 + 1

/-- The whole number nearest to a quotient, a half going to the even neighbour. -/
def nearest (num den : Nat) : Nat :=
  let q := num / den
  let r := num % den
  if 2 * r < den then q else if den < 2 * r then q + 1 else if q % 2 = 0 then q else q + 1

/-- How many binary digits a number of this size has below its 53 significant ones. -/
def slack (n : Nat) : Nat := bitLength n - 53

/-- The number nearest to a quotient of units. What rounds past the largest finite number is
infinite. -/
def ofQuotient (negative : Bool) (num den : Nat) : Double :=
  let unit := 1 <<< slack (num / den)
  let units := nearest num (den * unit) * unit
  if units < one <<< 1024 then finite (if negative then -(units : Int) else units)
  else infinite negative

/-- The largest finite number. -/
def largest : Double := finite ((1 <<< 53 - 1) <<< 971 * one : Nat)

/-! ## Order and sums -/

/-- Is one number at most another? -/
def le : Double → Double → Bool
  | nan, _ => false
  | _, nan => false
  | infinite a, infinite b => a || !b
  | infinite a, finite _ => a
  | finite _, infinite b => !b
  | finite a, finite b => a ≤ b

/-- The sum, rounded. -/
def add : Double → Double → Double
  | nan, _ => nan
  | _, nan => nan
  | infinite a, infinite b => if a = b then infinite a else nan
  | infinite a, finite _ => infinite a
  | finite _, infinite b => infinite b
  | finite a, finite b => ofQuotient (a + b < 0) (a + b).natAbs 1

/-- Zero. -/
def zero : Double := finite 0

/-- The number nearest to `n` thousandths. -/
def ofThousandths (n : Nat) : Double := ofQuotient false (n * one) 1000

/-- Twice a number, which is exact up to the largest. -/
def double (x : Double) : Double := x.add x

/-! ## Reading -/

/-- The number nearest to `digits * 10 ^ exponent`. -/
def ofScientific (negative : Bool) (digits : Nat) (exponent : Int) : Double :=
  -- Exponents far outside the range decide the answer without any power being computed.
  let size := exponent + (Decimal.digits digits).length
  if digits = 0 ∨ size < -400 then zero
  else if 400 < size then infinite negative
  else if 0 ≤ exponent then ofQuotient negative (digits * Nat.pow 10 exponent.toNat * one) 1
  else ofQuotient negative (digits * one) (Nat.pow 10 exponent.natAbs)

/-- Reads a number without its sign: a name, or digits with an optional point and exponent. -/
def ofUnsigned? (negative : Bool) (cs : List Char) : Option Double :=
  match String.ofList (cs.map Char.toLower) with
  | "inf" => some (infinite negative)
  | "infinity" => some (infinite negative)
  | "nan" => some nan
  | _ =>
    let isMark (c : Char) : Bool := c = 'e' || c = 'E'
    let mantissa := cs.takeWhile (!isMark ·)
    let whole := mantissa.takeWhile (· ≠ '.')
    let fraction := (mantissa.dropWhile (· ≠ '.')).drop 1
    let exponent? : Option Int :=
      match cs.dropWhile (!isMark ·) with
      | [] => some 0
      | _ :: rest => Decimal.integer? rest
    match Decimal.natural? (whole ++ fraction), exponent? with
    | some digits, some exponent => some (ofScientific negative digits (exponent - fraction.length))
    | _, _ => none

/-- Reads a number. -/
def ofText? (s : String) : Option Double :=
  match s.toList with
  | '-' :: cs => ofUnsigned? true cs
  | '+' :: cs => ofUnsigned? false cs
  | cs => ofUnsigned? false cs

end Double

end VideoComments

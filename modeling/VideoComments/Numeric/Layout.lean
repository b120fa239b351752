import VideoComments.Numeric.Digits

/-!
# Setting numbers

A layout says how the digits of a number are set: where positional notation ends and the exponent
begins. Either way there is a digit on both sides of a point.
-/

namespace VideoComments

/-- How numbers are set: positionally while the point is within the bounds, else with an exponent;
and the names of what is no finite number. The point of `d₁d₂…` is `n` where the number is
`0.d₁d₂… * 10 ^ n`. -/
structure Layout where
  leastPoint : Int
  greatestPoint : Int
  infinity : String
  nan : String

namespace Layout

/-- The characters of digits with a point in or beside them. -/
def positional (digits : List Char) (point : Int) : List Char :=
  if point ≤ 0 then '0' :: '.' :: List.replicate point.natAbs '0' ++ digits
  else
    let n := point.toNat
    if n < digits.length then digits.take n ++ '.' :: digits.drop n
    else digits ++ List.replicate (n - digits.length) '0' ++ ['.', '0']

/-- The characters of digits with the point after the first, and an exponent. -/
def scientific (digits : List Char) (point : Int) : List Char :=
  let mantissa :=
    match digits with
    | d :: e :: rest => d :: '.' :: e :: rest
    | digits => digits
  mantissa ++ 'e' :: Decimal.signedDigits (point - 1)

/-- The characters of a positive number of units. -/
def magnitude (layout : Layout) (units : Nat) : List Char :=
  let ds := Digits.ofUnits units
  let digits := Decimal.digits ds.coefficient
  let point := ds.exponent + digits.length
  if layout.leastPoint ≤ point ∧ point ≤ layout.greatestPoint then positional digits point
  else scientific digits point

/-- The text of a number. -/
def write (layout : Layout) : Double → String
  | .nan => layout.nan
  | .infinite negative => (if negative then "-" else "") ++ layout.infinity
  | .finite units =>
    if units = 0 then "0.0"
    else (if units < 0 then "-" else "") ++ String.ofList (layout.magnitude units.natAbs)

end Layout

end VideoComments

import VideoComments.Numeric.Scaled

/-!
# Decimal digits of a number

A decimal stands for a number if it lies in the number's window: between the midpoints to the
neighbours of the number. The window is scaled by a power of ten, in numbers of 64 significant bits,
and made a little narrower for what the scaling may have lost. Its upper end is then cut off at
coarser and finer decimal places; the coarsest place at which the cut stays in the window decides
how many digits there are, and from there the last digit goes down as long as this brings it nearer
to the number.

The digits read back as the number. They are mostly the fewest that do and the nearest of those:
where the lost bits matter, there may be a digit more, or a nearer choice for the last one.
-/

namespace VideoComments

/-- The decimal `coefficient * 10 ^ exponent`. -/
structure Digits where
  coefficient : Nat
  exponent : Int
  deriving DecidableEq

namespace Digits

/-! ## The window -/

/-- The window of a number, scaled. Distances are counted in binary fractions of one. -/
structure Window where
  /-- The upper end. -/
  upper : Nat
  /-- The distance between the ends. -/
  width : Nat
  /-- The distance of the number from the upper end. -/
  descent : Nat
  /-- How many fractions make one. -/
  one : Nat
  /-- One stands for this power of ten. -/
  exponent : Int
  deriving DecidableEq

/-- The number, and the midpoints to its neighbours above and below: the neighbour below a power of
two is nearer. -/
def neighbourhood (units : Nat) : Scaled × Scaled × Scaled :=
  let slack := Double.slack units
  let f := units >>> slack
  let e := (slack : Int) - 1074
  let above : Scaled := ⟨2 * f + 1, e - 1⟩
  let below : Scaled := if f = 1 <<< 52 then ⟨4 * f - 1, e - 2⟩ else ⟨2 * f - 1, e - 1⟩
  (⟨f, e⟩, above, below)

/-- The power of ten that brings a number with this exponent and 64 digits to between one and nine
decimal digits before the point. The powers are those that leave four when divided by eight. -/
def scalePower (exponent : Int) : Int :=
  -- The decimal logarithm of two is a little below this quotient.
  let least := -((61 + exponent) * 30103 / 100000)
  8 * ((least + 347) / 8) - 340

/-- The window of a positive number of units. -/
def window (units : Nat) : Window :=
  let (value, above, below) := neighbourhood units
  let above := above.normalise
  let power := scalePower above.exponent
  let scale (x : Scaled) : Scaled := x.mul (.ofPowerOfTen power)
  let upper := (scale above).significand - 1
  let lower := (scale (below.withExponent above.exponent)).significand + 1
  { upper
    width := upper - lower
    descent := upper - (scale value.normalise).significand
    one := 1 <<< (-(scale above).exponent).toNat
    exponent := -power }

/-! ## The choice -/

/-- Moves a decimal down by steps, while it stays in the window and comes nearer to the number;
`rest` is its distance from the upper end, and `room` bounds the steps. -/
def approach (width descent step : Nat) : (room : Nat) → (coefficient rest : Nat) → Nat
  | 0, coefficient, _ => coefficient
  | room + 1, coefficient, rest =>
    if rest < descent ∧ rest + step ≤ width ∧
        (rest + step < descent ∨ rest + step - descent < descent - rest) then
      approach width descent step room (coefficient - 1) (rest + step)
    else coefficient

/-- The digits at a whole place, if the upper end cut off there is in the window. -/
def wholePlace? (w : Window) (place : Nat) : Option Digits :=
  let step := Nat.pow 10 place * w.one
  let rest := w.upper % step
  if rest ≤ w.width then
    some ⟨approach w.width w.descent step 9 (w.upper / step) rest, w.exponent + place⟩
  else none

/-- The digits at a place behind the point, if the upper end cut off there is in the window. From
the ninth place on they are not brought nearer to the number. -/
def fractionPlace? (w : Window) (place : Nat) : Option Digits :=
  let upper := w.upper * Nat.pow 10 place
  let rest := upper % w.one
  let width := w.width * Nat.pow 10 place
  let descent := if place < 9 then w.descent * Nat.pow 10 place else 0
  if rest < width then
    some ⟨approach width descent w.one 9 (upper / w.one) rest, w.exponent - place⟩
  else none

/-- The digits of a positive number of units: those at the coarsest place that has any. -/
def ofUnits (units : Nat) : Digits :=
  let w := window units
  let whole := (List.range 10).reverse.findSome? (wholePlace? w)
  let fraction := (List.range 20).findSome? fun place => fractionPlace? w (place + 1)
  (whole <|> fraction).getD ⟨w.upper / w.one, w.exponent⟩

end Digits

end VideoComments

import VideoComments.Numeric.Double

/-!
# Numbers of 64 significant bits

Numbers with a binary exponent of any size and a significand that is kept to 64 binary digits. They
carry eleven digits more than double precision, which is what the choice of decimal digits works
with.

* `Scaled.ofPowerOfTen` is the power of ten rounded to 64 digits.
* `Scaled.mul` rounds the product to 64 digits, or to 63 where the product is short of one.
-/

namespace VideoComments

/-- The number `significand * 2 ^ exponent`. -/
structure Scaled where
  significand : Nat
  exponent : Int
  deriving DecidableEq

namespace Scaled

/-- The same number with a significand of 64 digits. -/
def normalise (x : Scaled) : Scaled :=
  let shift := 64 - Double.bitLength x.significand
  { significand := x.significand <<< shift, exponent := x.exponent - shift }

/-- The same number with an exponent that is not above its own. -/
def withExponent (x : Scaled) (exponent : Int) : Scaled :=
  { significand := x.significand <<< (x.exponent - exponent).toNat, exponent }

/-- The product of significands of 64 digits without its lower 64 digits, a half going up. -/
def mul (x y : Scaled) : Scaled :=
  { significand := (x.significand * y.significand + 1 <<< 63) >>> 64,
    exponent := x.exponent + y.exponent + 64 }

/-- The number of 64 digits nearest to `10 ^ power`, for powers down to `-348`. -/
def ofPowerOfTen (power : Int) : Scaled :=
  -- With 1300 more binary digits the whole part of the least power has its 64.
  let num := Nat.pow 10 power.toNat <<< 1300
  let den := Nat.pow 10 (-power).toNat
  let slack := Double.bitLength (num / den) - 64
  { significand := Double.nearest num (den <<< slack), exponent := slack - 1300 }

end Scaled

end VideoComments

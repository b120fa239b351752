import VideoComments.Text.Decimal

/-!
# Spans of time

Lifetimes of cached pages are whole milliseconds. A span prints with its largest unit of seconds or
milliseconds, and without trailing zeros after the point.
-/

namespace VideoComments

/-- A span of time in whole milliseconds. -/
structure Duration where
  milliseconds : Nat
  deriving DecidableEq

namespace Duration

/-- A span of whole seconds. -/
def ofSeconds (n : Nat) : Duration := ⟨1000 * n⟩

/-- The whole seconds in a span. -/
def seconds (d : Duration) : Nat := d.milliseconds / 1000

/-- Three digits of a fraction, without the zeros at their end. -/
def fraction (n : Nat) : List Char :=
  let digits := [n / 100 % 10, n / 10 % 10, n % 10]
  (digits.reverse.dropWhile (· = 0)).reverse.map Decimal.digitChar

/-- The text of a span: `90061.001s`, `60s`, `999ms`, `0ns`. -/
def text (d : Duration) : String :=
  if d.milliseconds = 0 then "0ns"
  else if d.seconds = 0 then Decimal.ofNat d.milliseconds ++ "ms"
  else
    match fraction (d.milliseconds % 1000) with
    | [] => Decimal.ofNat d.seconds ++ "s"
    | digits => Decimal.ofNat d.seconds ++ "." ++ String.ofList digits ++ "s"

end Duration

end VideoComments

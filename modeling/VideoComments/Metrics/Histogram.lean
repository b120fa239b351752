import VideoComments.Numeric.Double

/-!
# Histograms

A histogram counts observations by size. An observation goes into the first bucket whose bound it
does not exceed; the last bound is the largest finite number, so what compares with no bound, or
exceeds all of them, is counted and summed but put into no bucket.
-/

namespace VideoComments

/-- Counts of observations below growing bounds, each counted in one bucket. -/
structure Histogram where
  sum : Double := .zero
  count : Nat := 0
  buckets : List (Double × Nat)

namespace Histogram

/-- `n` numbers, each twice the one before it. -/
def doublings (first : Double) : Nat → List Double
  | 0 => []
  | n + 1 => first :: doublings first.double n

/-- The bounds of request durations in seconds: from a millisecond, doubling eleven times, and the
largest number. -/
def durationBounds : List Double := doublings (.ofThousandths 1) 12 ++ [.largest]

/-- A histogram without observations. -/
def empty (bounds : List Double) : Histogram := { buckets := bounds.map (·, 0) }

/-- Puts an observation into the first bucket that takes it. -/
def place (x : Double) : List (Double × Nat) → List (Double × Nat)
  | [] => []
  | (bound, n) :: rest =>
    if x.le bound then (bound, n + 1) :: rest else (bound, n) :: place x rest

/-- One more observation. -/
def observe (h : Histogram) (x : Double) : Histogram :=
  { sum := h.sum.add x, count := h.count + 1, buckets := place x h.buckets }

/-- The buckets with the number of observations up to each bound, `below` lying under the first. -/
def cumulative (below : Nat) : List (Double × Nat) → List (Double × Nat)
  | [] => []
  | (bound, n) :: rest => (bound, below + n) :: cumulative (below + n) rest

end Histogram

end VideoComments

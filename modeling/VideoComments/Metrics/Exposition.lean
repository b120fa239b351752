import VideoComments.Metrics.Requests
import VideoComments.Numeric.Layout

/-!
# Metrics as text

The OpenMetrics text of the request metrics: the two families in the order of their registration,
each with its help and its type, then its samples by label set, label sets in the order of their
text. A family's name is its prefix, unchanged, and a suffix.
-/

namespace VideoComments.Metrics

/-- Numbers stand positionally from a millionth up to below `10 ^ 21`. -/
def layout : Layout :=
  { leastPoint := -5, greatestPoint := 21, infinity := "inf", nan := "NaN" }

/-- The text of a number. -/
def number (x : Double) : String := layout.write x

/-- The text of a label set. -/
def labelText (l : Labels) : String :=
  "method=\"" ++ l.method.name ++ "\",status=\"" ++ l.outcome.name ++ "\""

/-- The label sets of a family in the order of their text. -/
def sorted {V : Type} (f : Family V) : Family V :=
  f.mergeSort fun a b => labelText a.1 ≤ labelText b.1

/-- One sample: its name, its labels and its value. -/
def sample (name labels value : String) : String := name ++ "\x7b" ++ labels ++ "\x7d " ++ value

/-- The bound of a bucket; the largest number stands for all numbers. -/
def boundText (bound : Double) : String := if bound = .largest then "+Inf" else number bound

/-- The help and the type of a family. -/
def heading (name help type : String) : List String :=
  ["# HELP " ++ name ++ " " ++ help ++ ".", "# TYPE " ++ name ++ " " ++ type]

/-- The samples of a histogram: its sum, its count and its buckets. -/
def histogramLines (name : String) (l : Labels) (h : Histogram) : List String :=
  sample (name ++ "_sum") (labelText l) (number h.sum) ::
  sample (name ++ "_count") (labelText l) (Decimal.ofNat h.count) ::
  (Histogram.cumulative 0 h.buckets).map fun b =>
    sample (name ++ "_bucket") ("le=\"" ++ boundText b.1 ++ "\"," ++ labelText l)
      (Decimal.ofNat b.2)

/-- The name of the counter family under a prefix. -/
def counterName (start : String) : String := start ++ "_request_counter"

/-- The name of the duration family under a prefix. -/
def durationName (start : String) : String := start ++ "_request_duration"

/-- The lines of the metrics under a prefix. -/
def lines (m : Metrics) (start : String) : List String :=
  heading (counterName start) "Total number of requests handled" "counter" ++
  (sorted m.counters).map (fun c =>
    sample (counterName start ++ "_total") (labelText c.1) (Decimal.ofNat c.2)) ++
  heading (durationName start) "Histogram of request durations in seconds" "histogram" ++
  (sorted m.durations).flatMap (fun d => histogramLines (durationName start) d.1 d.2) ++
  ["# EOF"]

/-- The text of the metrics under a prefix. -/
def text (m : Metrics) (start : String) : String :=
  String.join ((m.lines start).map (· ++ "\n"))

/-- The prefix under which the service registers its metrics. -/
def serviceName : String := "comment_service"

/-- The type of the text. -/
def contentType : String := "application/openmetrics-text; version=1.0.0; charset=utf-8"

end VideoComments.Metrics

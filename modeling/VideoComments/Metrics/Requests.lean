import VideoComments.Metrics.Histogram

/-!
# Request metrics

Requests are counted, and their durations observed, by method and outcome. A pair of labels comes
into being with the first request that bears it.
-/

namespace VideoComments

/-- The methods of the service. -/
inductive Method
  | healthz
  | listComment
  | createComment
  | updateComment
  | deleteComment
  | deleteCommentByVideoId
  deriving DecidableEq

/-- The name of a method, as callers, logs and metrics know it. -/
def Method.name : Method → String
  | healthz => "Healthz"
  | listComment => "ListComment"
  | createComment => "CreateComment"
  | updateComment => "UpdateComment"
  | deleteComment => "DeleteComment"
  | deleteCommentByVideoId => "DeleteCommentByVideoId"

/-- All methods. -/
def Method.all : List Method :=
  [.healthz, .listComment, .createComment, .updateComment, .deleteComment, .deleteCommentByVideoId]

/-- How a request ended. -/
inductive Outcome
  | success
  | error
  deriving DecidableEq

/-- The name of an outcome in metrics. -/
def Outcome.name : Outcome → String
  | success => "Success"
  | error => "Error"

/-- What requests are told apart by. -/
structure Labels where
  method : Method
  outcome : Outcome
  deriving DecidableEq

/-- Values by their labels, each label set once. -/
abbrev Family (V : Type) := List (Labels × V)

namespace Family

/-- The value under a label set. -/
def get? {V : Type} (f : Family V) (labels : Labels) : Option V := f.lookup labels

/-- Changes the value under a label set, which is `initial` if there was none. -/
def update {V : Type} (f : Family V) (labels : Labels) (initial : V) (change : V → V) : Family V :=
  match f with
  | [] => [(labels, change initial)]
  | (l, v) :: rest =>
    if l = labels then (l, change v) :: rest else (l, v) :: update rest labels initial change

end Family

/-- The metrics of a service. -/
structure Metrics where
  counters : Family Nat := []
  durations : Family Histogram := []

namespace Metrics

/-- Counts a request and observes its duration. -/
def record (m : Metrics) (labels : Labels) (seconds : Double) : Metrics where
  counters := m.counters.update labels 0 (· + 1)
  durations := m.durations.update labels (.empty Histogram.durationBounds) (·.observe seconds)

end Metrics

end VideoComments

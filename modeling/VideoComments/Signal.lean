import VideoComments.Metrics.Requests

/-!
# Signals

What the service tells those who watch it, without waiting for an answer: log lines, spans that have
ended, and observations of requests.
-/

namespace VideoComments

/-- How much a log line matters. -/
inductive Level
  | debug
  | info
  | error
  deriving DecidableEq

/-- The name of a level. -/
def Level.name : Level → String
  | debug => "DEBUG"
  | info => "INFO"
  | error => "ERROR"

/-- One line of the log. -/
structure LogLine where
  level : Level
  message : String
  deriving DecidableEq

/-- The value of a span's attribute. -/
inductive Attribute
  | text (s : String)
  | number (i : Int)
  deriving DecidableEq

/-- What happens within a span. -/
inductive SpanEvent
  | started (operation : String)
  | completed (outcome : Outcome) (seconds : Double) (message : String)
  deriving DecidableEq

namespace SpanEvent

/-- The name of an event. -/
def name : SpanEvent → String
  | started _ => "Operation started"
  | completed .. => "Operation completed"

/-- The status of a completed operation. -/
def status : Outcome → String
  | .success => "SUCCESS"
  | .error => "ERROR"

/-- The attributes of an event, its duration left out. -/
def attributes : SpanEvent → List (String × String)
  | started operation => [("operation", operation)]
  | completed outcome _ message => [("status", status outcome), ("message", message)]

end SpanEvent

/-- A span of work on the server's side that has ended. -/
structure Span where
  name : String
  attributes : List (String × Attribute)
  events : List SpanEvent
  deriving DecidableEq

/-- What the service tells its watchers. -/
inductive Signal
  | log (line : LogLine)
  | span (s : Span)
  | request (labels : Labels) (seconds : Double)

end VideoComments

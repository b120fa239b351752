/-!
# Links to other servers

Whether a server that the service depends on can be reached. A link that is down has a cause, in the
words of the system that reports it.
-/

namespace VideoComments

/-- The state of the way to a server. -/
inductive Link
  | up
  | down (cause : String)
  deriving DecidableEq

end VideoComments

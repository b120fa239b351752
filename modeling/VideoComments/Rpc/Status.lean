import VideoComments.Failure

/-!
# Statuses of calls

The codes with which a call can end, and the code that stands for each failure. The message of a
status is that of the failure.
-/

namespace VideoComments.Rpc

/-- How a call ends, as callers see it. -/
inductive Code
  | ok
  | invalidArgument
  | notFound
  | outOfRange
  | unimplemented
  | internal
  deriving DecidableEq

namespace Code

/-- The number of a code. -/
def number : Code → Nat
  | ok => 0
  | invalidArgument => 3
  | notFound => 5
  | outOfRange => 11
  | unimplemented => 12
  | internal => 13

/-- The name of a code. -/
def name : Code → String
  | ok => "Ok"
  | invalidArgument => "InvalidArgument"
  | notFound => "NotFound"
  | outOfRange => "OutOfRange"
  | unimplemented => "Unimplemented"
  | internal => "Internal"

/-- The code that stands for a failure. -/
def ofFailure : Failure → Code
  | .commentNotFound => notFound
  | .invalidId .. => invalidArgument
  | _ => internal

end Code

/-- The end of a call that has no response. -/
structure Status where
  code : Code
  message : String
  deriving DecidableEq

/-- The status that stands for a failure. -/
def Status.ofFailure (failure : Failure) : Status := ⟨.ofFailure failure, failure.message⟩

end VideoComments.Rpc

import VideoComments.Program

/-!
# Accounting for calls

Every call of the service is accounted for in the same way: a span from its start to its end, a log
line at either end, one request counted and its duration observed. `accounted` does this around the
work of a call, so that no way out of the work leaves the call unaccounted for.
-/

namespace VideoComments.Service

open Program

/-- The end of a call's work: its result, and what is said about it. -/
structure Completion (α : Type) where
  result : Except Failure α
  message : String

namespace Completion

/-- The work succeeded. -/
def success {α : Type} (response : α) (message : String) : Completion α := ⟨.ok response, message⟩

/-- The work failed. -/
def failure {α : Type} (reason : Failure) (message : String) : Completion α :=
  ⟨.error reason, message⟩

/-- How the call ended. -/
def outcome {α : Type} (c : Completion α) : Outcome :=
  match c.result with
  | .ok _ => .success
  | .error _ => .error

end Completion

/-- What the log says of the end of a call. -/
def closingLine (outcome : Outcome) (message : String) : LogLine :=
  match outcome with
  | .success => ⟨.info, "Operation completed successfully: " ++ message⟩
  | .error => ⟨.error, "Operation failed: " ++ message⟩

/-- Does the work of a call and accounts for it. -/
def accounted {α : Type} (method : Method) (attributes : List (String × Attribute))
    (work : Program (Completion α)) : Program (Except Failure α) := do
  let start ← ask .clock
  log .info ("Starting operation: " ++ method.name)
  let completion ← work
  let stop ← ask .clock
  let seconds := Double.ofThousandths (stop - start)
  let outcome := completion.outcome
  emit (.span
    { name := method.name
      attributes
      events := [.started method.name, .completed outcome seconds completion.message] }) do
  emit (.log (closingLine outcome completion.message)) do
  emit (.request ⟨method, outcome⟩ seconds) do
  return completion.result

end VideoComments.Service

import VideoComments.Rpc.Status
import VideoComments.Service.Calls

/-!
# Calls as callers see them

The adapter logs what is asked and what goes wrong, and turns a failure into a status.
-/

namespace VideoComments.Rpc

open Program

/-- What the log says when a call comes in; health checks are not logged. -/
def openingLine? : Request → Option String
  | .healthz _ => none
  | .list m => some ("Listing comments of video " ++ m.video)
  | .create m => some ("Creating comment on video " ++ m.video)
  | .update m => some ("Updating comment " ++ m.id)
  | .delete m => some ("Deleting comment " ++ m.id)
  | .deleteByVideo m => some ("Deleting comments of video " ++ m.video)

/-- What a call failed to do. -/
def undone : Request → String
  | .healthz _ => "check health"
  | .list _ => "list comments"
  | .create _ => "create comment"
  | .update m => "update comment " ++ m.id
  | .delete m => "delete comment " ++ m.id
  | .deleteByVideo m => "delete comments of video " ++ m.video

/-- A call of the service, with a status in place of a failure. -/
def call (repository : Repository) (r : Request) : Program (Except Status r.Response) := do
  match openingLine? r with
  | some line => log .info line
  | none => pure ()
  match ← Service.call repository r with
  | .ok response => return .ok response
  | .error e =>
    log .error ("Failed to " ++ undone r ++ ": " ++ e.message)
    return .error (.ofFailure e)

end VideoComments.Rpc

import VideoComments.Repository.Basic
import VideoComments.Rpc.Request
import VideoComments.Service.Accounting

/-!
# The calls of the service

What each call does with the repository, and what is said about it. A malformed identifier ends a
call before the repository is asked.
-/

namespace VideoComments.Service

open Program Rpc

/-! ## What is attached to the span of a call -/

/-- Every span names the component. -/
def component : String × Attribute := ("component", .text "comment")

/-- The attributes of a call's span. -/
def attributes : Request → List (String × Attribute)
  | .healthz _ => [component]
  | .list m =>
    [component, ("video_id", .text m.video), ("limit", .number m.limit.toInt),
      ("offset", .number m.offset.toInt)]
  | .create m => [component, ("video_id", .text m.video)]
  | .update m => [component, ("comment.id", .text m.id)]
  | .delete m => [component, ("comment.id", .text m.id)]
  | .deleteByVideo m => [component, ("video_id", .text m.video)]

/-! ## The work of each call -/

/-- The service is healthy as soon as it answers. -/
def healthz : Program (Completion HealthzResponse) :=
  return .success { status := "ok" } "Service is healthy"

/-- Lists a page of the comments on a video. -/
def list (repository : Repository) (m : ListCommentRequest) :
    Program (Completion ListCommentResponse) := do
  match ← repository (.list m.video m.limit.toInt m.offset.toInt) with
  | .ok comments =>
    return .success { comments := comments.map CommentInfo.ofComment }
      ("Listed " ++ Decimal.ofNat comments.length ++ " comments")
  | .error e => return .failure e ("Failed to list comments: " ++ e.message)

/-- Creates a comment on a video. -/
def create (repository : Repository) (m : CreateCommentRequest) :
    Program (Completion CreateCommentResponse) := do
  match ← repository (.create { video := m.video, content := m.content }) with
  | .ok id => return .success { id := id.text } "Comment created successfully"
  | .error e => return .failure e ("Failed to create comment: " ++ e.message)

/-- The identifier in a request. -/
def commentId (text : String) : Except Failure Uuid :=
  (Uuid.ofText text).mapError (.invalidId text)

/-- Replaces the content of a comment. -/
def update (repository : Repository) (m : UpdateCommentRequest) :
    Program (Completion UpdateCommentResponse) := do
  match commentId m.id with
  | .error e => return .failure e e.message
  | .ok id =>
    match ← repository (.update { id, content := m.content }) with
    | .ok () => return .success {} "Comment updated successfully"
    | .error e => return .failure e ("Failed to update comment " ++ id.text ++ ": " ++ e.message)

/-- Deletes a comment. -/
def delete (repository : Repository) (m : DeleteCommentRequest) :
    Program (Completion DeleteCommentResponse) := do
  match commentId m.id with
  | .error e => return .failure e e.message
  | .ok id =>
    match ← repository (.delete id) with
    | .ok () => return .success {} "Comment deleted successfully"
    | .error e => return .failure e ("Failed to delete comment " ++ id.text ++ ": " ++ e.message)

/-- Deletes all comments on a video. -/
def deleteByVideo (repository : Repository) (m : DeleteCommentByVideoIdRequest) :
    Program (Completion DeleteCommentByVideoIdResponse) := do
  match ← repository (.deleteByVideo m.video) with
  | .ok () => return .success {} "Comments of video deleted successfully"
  | .error e =>
    return .failure e ("Failed to delete comments of video " ++ m.video ++ ": " ++ e.message)

/-- The work of a call. -/
def work (repository : Repository) : (r : Request) → Program (Completion r.Response)
  | .healthz _ => healthz
  | .list m => list repository m
  | .create m => create repository m
  | .update m => update repository m
  | .delete m => delete repository m
  | .deleteByVideo m => deleteByVideo repository m

/-- A call of the service: its work, accounted for. -/
def call (repository : Repository) (r : Request) : Program (Except Failure r.Response) :=
  accounted r.method (attributes r) (work repository r)

/-! ## How the service shows itself -/

/-- How the service prints for debugging; the repository is not looked into. -/
def debugText : String :=
  "CommentService \x7b repository: \"DynCommentRepository\" \x7d"

/-- How the wiring of the service prints for debugging. -/
def wiringDebugText : String :=
  "DependenciesInject \x7b comment_service: \"DynCommentService\" \x7d"

end VideoComments.Service

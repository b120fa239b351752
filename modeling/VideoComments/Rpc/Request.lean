import VideoComments.Metrics.Requests
import VideoComments.Rpc.Message

/-!
# Requests

A call of the service: its method, its message, and the type of message that answers it.
-/

namespace VideoComments.Rpc

/-- A request to the service. -/
inductive Request
  | healthz (message : HealthzRequest)
  | list (message : ListCommentRequest)
  | create (message : CreateCommentRequest)
  | update (message : UpdateCommentRequest)
  | delete (message : DeleteCommentRequest)
  | deleteByVideo (message : DeleteCommentByVideoIdRequest)
  deriving DecidableEq

namespace Request

/-- The method that a request calls. -/
def method : Request → Method
  | healthz _ => .healthz
  | list _ => .listComment
  | create _ => .createComment
  | update _ => .updateComment
  | delete _ => .deleteComment
  | deleteByVideo _ => .deleteCommentByVideoId

/-- The message that answers a request. -/
@[reducible] def Response : Request → Type
  | healthz _ => HealthzResponse
  | list _ => ListCommentResponse
  | create _ => CreateCommentResponse
  | update _ => UpdateCommentResponse
  | delete _ => DeleteCommentResponse
  | deleteByVideo _ => DeleteCommentByVideoIdResponse

/-- The bytes of the message that answers a request. -/
def encodeResponse (r : Request) (response : r.Response) : List UInt8 :=
  match r with
  | healthz _ => Message.encode (response : HealthzResponse)
  | list _ => Message.encode (response : ListCommentResponse)
  | create _ => Message.encode (response : CreateCommentResponse)
  | update _ => Message.encode (response : UpdateCommentResponse)
  | delete _ => Message.encode (response : DeleteCommentResponse)
  | deleteByVideo _ => Message.encode (response : DeleteCommentByVideoIdResponse)

/-- The request of a method with the message that the bytes spell. -/
def decode? (bytes : List UInt8) : Method → Option Request
  | .healthz => (Message.decode? bytes).map healthz
  | .listComment => (Message.decode? bytes).map list
  | .createComment => (Message.decode? bytes).map create
  | .updateComment => (Message.decode? bytes).map update
  | .deleteComment => (Message.decode? bytes).map delete
  | .deleteCommentByVideoId => (Message.decode? bytes).map deleteByVideo

end Request

end VideoComments.Rpc

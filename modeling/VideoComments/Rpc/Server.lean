import VideoComments.Rpc.Adapter
import VideoComments.Rpc.Frame
import VideoComments.Text.Percent

/-!
# The server

A call comes in as a path and a body. The path names the method; the body is one frame with the
request. Frames after the first have to be whole and to hold a message of the method, but are not
used; only the last may lack its whole message. What goes out is a status and, after a success, one
frame with the response.
-/

namespace VideoComments.Rpc

open Program

/-! ## Requests on the wire -/

/-- The path of a method. -/
def path (m : Method) : String := "/comment.CommentService/" ++ m.name

/-- The part of a target before its query. -/
def targetPath (target : String) : String :=
  String.ofList (target.toList.takeWhile fun c => c ≠ '?' && c ≠ '#')

/-- The method that a target names. -/
def route? (target : String) : Option Method :=
  Method.all.find? fun m => path m = targetPath target

/-- The code that stands for a faulty frame. -/
def Code.ofFault : Frame.Fault → Code
  | .tooLong => outOfRange
  | _ => internal

/-- Reads the requests in the frames of a body. -/
def requests (m : Method) (body : List UInt8) : Except Code (List Request) :=
  match _h : Frame.read body with
  | .error fault => .error (.ofFault fault)
  | .ok none => .ok []
  | .ok (some (bytes, rest)) =>
    match Request.decode? bytes m with
    | none => .error .internal
    | some r => (requests m rest).map (r :: ·)
termination_by body.length
decreasing_by exact Frame.read_length _h

/-! ## Answers on the wire -/

/-- What goes out: a code, the message of a status of the service, and the body. -/
structure Reply where
  code : Code
  message : Option String := none
  body : List UInt8 := []
  deriving DecidableEq

/-- The bytes that stand for themselves in the message of a status. -/
def isPlain (b : UInt8) : Bool :=
  0x20 < b && b < 0x7F && !("\"#%<>`?\x7b\x7d".toList.contains (Char.ofNat b.toNat))

/-- The message of a status as it travels. -/
def encodeMessage (message : String) : String := String.ofList (Percent.encode isPlain message)

/-- The type of what goes out. -/
def contentType : String := "application/grpc"

/-- Answers a call that comes in. -/
def serve (repository : Repository) (target : String) (body : List UInt8) : Program Reply :=
  match route? target with
  | none => return { code := .unimplemented }
  | some m =>
    match requests m body with
    | .error code => return { code }
    | .ok [] => return { code := .internal }
    | .ok (r :: _) => do
      match ← call repository r with
      | .ok response => return { code := .ok, body := Frame.encode (r.encodeResponse response) }
      | .error status => return { code := status.code, message := encodeMessage status.message }

end VideoComments.Rpc

import VideoComments.Comment
import VideoComments.Wire.Field

/-!
# Messages of the comment service

Each message lists the fields that it writes, in number order, and says how it absorbs a field that
is read: the last string or number wins, repeated messages are appended, fields of other numbers
change nothing, and a known field of another type is refused.

* `Message.encode` writes a message, `Message.decode?` reads one.
-/

namespace VideoComments.Rpc

open Wire

/-- What a type of messages provides. -/
class Message (M : Type) where
  /-- The message without fields. -/
  empty : M
  /-- The fields that differ from their defaults. -/
  fields : M → List Field
  /-- The message after one more field; groups in nested messages may nest `depth` deep. -/
  absorb? : (depth : Nat) → M → Field → Option M

namespace Message

/-- How deep groups and messages may nest. -/
def depthLimit : Nat := 100

/-- Reads a message whose groups may nest `depth` deep. -/
def decodeWithin? {M : Type} [Message M] (depth : Nat) (bytes : List UInt8) : Option M :=
  (Field.readAll depth bytes).bind fun fs => fs.foldlM (absorb? depth) empty

/-- Reads a message. -/
def decode? {M : Type} [Message M] (bytes : List UInt8) : Option M := decodeWithin? depthLimit bytes

/-- Writes a message. -/
def encode {M : Type} [Message M] (m : M) : List UInt8 := (fields m).flatMap Field.encode

end Message

/-! ## Comments -/

/-- A comment as callers see it, its identifier as text. -/
structure CommentInfo where
  id : String := ""
  video : String := ""
  content : String := ""
  deriving DecidableEq

/-- How callers see a comment. -/
def CommentInfo.ofComment (c : Comment) : CommentInfo := ⟨c.id.text, c.video, c.content⟩

instance : Message CommentInfo where
  empty := {}
  fields m := textField 1 m.id ++ textField 2 m.video ++ textField 3 m.content
  absorb? _ m
    | ⟨1, v⟩ => v.text?.map fun s => { m with id := s }
    | ⟨2, v⟩ => v.text?.map fun s => { m with video := s }
    | ⟨3, v⟩ => v.text?.map fun s => { m with content := s }
    | _ => some m

/-! ## Health -/

/-- Asks whether the service is up. -/
structure HealthzRequest where
  deriving DecidableEq

instance : Message HealthzRequest where
  empty := {}
  fields _ := []
  absorb? _ m _ := some m

/-- Says how the service is. -/
structure HealthzResponse where
  status : String := ""
  deriving DecidableEq

instance : Message HealthzResponse where
  empty := {}
  fields m := textField 1 m.status
  absorb? _ m
    | ⟨1, v⟩ => v.text?.map fun s => { m with status := s }
    | _ => some m

/-! ## Listing -/

/-- Asks for a page of the comments on a video. -/
structure ListCommentRequest where
  video : String := ""
  limit : Int32 := 0
  offset : Int32 := 0
  deriving DecidableEq

instance : Message ListCommentRequest where
  empty := {}
  fields m := textField 1 m.video ++ int32Field 2 m.limit ++ int32Field 3 m.offset
  absorb? _ m
    | ⟨1, v⟩ => v.text?.map fun s => { m with video := s }
    | ⟨2, v⟩ => v.int32?.map fun i => { m with limit := i }
    | ⟨3, v⟩ => v.int32?.map fun i => { m with offset := i }
    | _ => some m

/-- A page of comments. -/
structure ListCommentResponse where
  comments : List CommentInfo := []
  deriving DecidableEq

/-- The field of a nested comment, which is written even when it is empty. -/
def commentField (number : Nat) (c : CommentInfo) : Field := ⟨number, .bytes (Message.encode c)⟩

/-- The comment nested in a value. -/
def nestedComment? (depth : Nat) : Value → Option CommentInfo
  | .bytes payload => Message.decodeWithin? depth payload
  | _ => none

instance : Message ListCommentResponse where
  empty := {}
  fields m := m.comments.map (commentField 1)
  absorb? depth m
    | ⟨1, v⟩ => (nestedComment? (depth - 1) v).map fun c => { comments := m.comments ++ [c] }
    | _ => some m

/-! ## Creating -/

/-- Asks for a new comment on a video. -/
structure CreateCommentRequest where
  video : String := ""
  content : String := ""
  deriving DecidableEq

instance : Message CreateCommentRequest where
  empty := {}
  fields m := textField 1 m.video ++ textField 2 m.content
  absorb? _ m
    | ⟨1, v⟩ => v.text?.map fun s => { m with video := s }
    | ⟨2, v⟩ => v.text?.map fun s => { m with content := s }
    | _ => some m

/-- The identifier of a new comment. -/
structure CreateCommentResponse where
  id : String := ""
  deriving DecidableEq

instance : Message CreateCommentResponse where
  empty := {}
  fields m := textField 1 m.id
  absorb? _ m
    | ⟨1, v⟩ => v.text?.map fun s => { m with id := s }
    | _ => some m

/-! ## Updating -/

/-- Asks for new content of a comment. -/
structure UpdateCommentRequest where
  id : String := ""
  content : String := ""
  deriving DecidableEq

instance : Message UpdateCommentRequest where
  empty := {}
  fields m := textField 1 m.id ++ textField 2 m.content
  absorb? _ m
    | ⟨1, v⟩ => v.text?.map fun s => { m with id := s }
    | ⟨2, v⟩ => v.text?.map fun s => { m with content := s }
    | _ => some m

/-- The comment has new content. -/
structure UpdateCommentResponse where
  deriving DecidableEq

instance : Message UpdateCommentResponse where
  empty := {}
  fields _ := []
  absorb? _ m _ := some m

/-! ## Deleting -/

/-- Asks for a comment to be deleted. -/
structure DeleteCommentRequest where
  id : String := ""
  deriving DecidableEq

instance : Message DeleteCommentRequest where
  empty := {}
  fields m := textField 1 m.id
  absorb? _ m
    | ⟨1, v⟩ => v.text?.map fun s => { m with id := s }
    | _ => some m

/-- The comment is gone. -/
structure DeleteCommentResponse where
  deriving DecidableEq

instance : Message DeleteCommentResponse where
  empty := {}
  fields _ := []
  absorb? _ m _ := some m

/-- Asks for all comments on a video to be deleted. -/
structure DeleteCommentByVideoIdRequest where
  video : String := ""
  deriving DecidableEq

instance : Message DeleteCommentByVideoIdRequest where
  empty := {}
  fields m := textField 1 m.video
  absorb? _ m
    | ⟨1, v⟩ => v.text?.map fun s => { m with video := s }
    | _ => some m

/-- The comments on the video are gone. -/
structure DeleteCommentByVideoIdResponse where
  deriving DecidableEq

instance : Message DeleteCommentByVideoIdResponse where
  empty := {}
  fields _ := []
  absorb? _ m _ := some m

end VideoComments.Rpc

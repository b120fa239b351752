import VideoComments.Comment.Table

/-!
# Operations on stored comments

What a repository is asked for, what it answers when nothing fails, and what the operation means for
the table of comments.
-/

namespace VideoComments

/-- A request to a repository of comments. -/
inductive Operation
  /-- A page of the comments on a video. -/
  | list (video : String) (limit offset : Int)
  /-- Store a comment under a new identifier. -/
  | create (comment : Comment)
  /-- Replace the content of the comment with this identifier. -/
  | update (comment : Comment)
  | delete (id : Uuid)
  | deleteByVideo (video : String)
  deriving DecidableEq

namespace Operation

/-- What a successful operation answers. -/
@[reducible] def Answer : Operation → Type
  | list .. => List Comment
  | create _ => Uuid
  | update _ => Unit
  | delete _ => Unit
  | deleteByVideo _ => Unit

/-- Reads the comments of rows; the first row that holds none decides the failure. -/
def comments (rows : List Row) : Except Failure (List Comment) :=
  (rows.mapM Row.comment).mapError .database

/-- The effect of an operation on the table; a new comment gets the identifier `fresh`. Updating or
deleting a comment that does not exist fails and changes nothing. -/
def apply (op : Operation) (fresh : Uuid) (t : Table) : Except Failure op.Answer × Table :=
  match op with
  | list video limit offset => (comments (Table.page limit offset (t.ofVideo video)), t)
  | create comment => (.ok fresh, t.insert fresh comment.video comment.content)
  | update comment =>
    if t.count (·.id = comment.id) = 0 then (.error .commentNotFound, t)
    else (.ok (), t.setContent comment.id comment.content)
  | delete id =>
    if t.count (·.id = id) = 0 then (.error .commentNotFound, t)
    else (.ok (), t.remove (·.id = id))
  | deleteByVideo video => (.ok (), t.remove (·.video = video))

end Operation

end VideoComments

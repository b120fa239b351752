import VideoComments.Program

/-!
# Repositories

A repository carries out the operations on stored comments as programs: directly on a store, or by
statements to a database.
-/

namespace VideoComments

open Program

/-- How the operations on stored comments are carried out. -/
abbrev Repository := (op : Operation) → Program (Except Failure op.Answer)

namespace Repository

/-- Asks the store itself. -/
def direct : Repository := fun op => ask (.store op)

/-! ## Statements to a database -/

/-- Selects a page of the comments on a video. A limit that is not positive is none. -/
def selectPage (video : String) (limit offset : Int) :
    Program (Except Failure (List Comment)) := do
  log .info ("Listing comments of video " ++ video ++ " (limit " ++ Decimal.ofInt limit ++
    ", offset " ++ Decimal.ofInt offset ++ ")")
  let bound := if 0 < limit then some limit.toNat else none
  match ← ask (.statement (.select video bound offset.toNat)) with
  | .error failure => return .error failure
  | .ok rows => return Operation.comments rows

/-- Inserts a comment under a fresh identifier. -/
def insertComment (comment : Comment) : Program (Except Failure Uuid) := do
  let id ← ask .freshId
  match ← ask (.statement (.insert id comment.video comment.content)) with
  | .error failure => return .error failure
  | .ok _ =>
    log .info ("New comment inserted with ID: " ++ id.text)
    return .ok id

/-- Sets the content of a comment, which must exist. -/
def updateComment (comment : Comment) : Program (Except Failure Unit) := do
  match ← ask (.statement (.update comment.id comment.content)) with
  | .error failure => return .error failure
  | .ok affected =>
    if affected = 0 then
      log .error ("Comment ID " ++ comment.id.text ++ " not found for update")
      return .error .commentNotFound
    else
      log .info ("Successfully updated comment ID " ++ comment.id.text)
      return .ok ()

/-- Deletes a comment, which must exist. -/
def deleteComment (id : Uuid) : Program (Except Failure Unit) := do
  match ← ask (.statement (.delete id)) with
  | .error failure => return .error failure
  | .ok affected =>
    if affected = 0 then
      log .error ("No comment found to delete with ID: " ++ id.text)
      return .error .commentNotFound
    else
      log .info ("Comment ID: " ++ id.text ++ " deleted successfully")
      return .ok ()

/-- Deletes the comments on a video, if there are any. -/
def deleteVideo (video : String) : Program (Except Failure Unit) := do
  match ← ask (.statement (.deleteByVideo video)) with
  | .error failure => return .error failure
  | .ok affected =>
    log .info ("Deleted " ++ Decimal.ofNat affected ++ " comments of video " ++ video)
    return .ok ()

/-- Sends statements to a database. -/
def database : Repository
  | .list video limit offset => selectPage video limit offset
  | .create comment => insertComment comment
  | .update comment => updateComment comment
  | .delete id => deleteComment id
  | .deleteByVideo video => deleteVideo video

end Repository

end VideoComments

import VideoComments.Comment.Table

/-!
# Statements to the database

The five statements of the comment repository: their text, the values bound to their parameters, and
what they do to the table of comments.
-/

namespace VideoComments

/-- The names in the schema. -/
inductive Identifier
  | table
  | id
  | videoId
  | content
  | createdAt
  | updatedAt
  deriving DecidableEq

namespace Identifier

/-- The name as the database knows it. -/
def name : Identifier → String
  | table => "comments"
  | id => "id"
  | videoId => "video_id"
  | content => "content"
  | createdAt => "created_at"
  | updatedAt => "updated_at"

/-- The name between quotes. -/
def quoted (i : Identifier) : String := "\"" ++ i.name ++ "\""

end Identifier

/-- A statement to the database. -/
inductive Statement
  /-- The rows of a video from `offset` on, `limit` of them if there is a limit. -/
  | select (video : String) (limit : Option Nat) (offset : Nat)
  | insert (id : Uuid) (video content : String)
  | update (id : Uuid) (content : String)
  | delete (id : Uuid)
  | deleteByVideo (video : String)
  deriving DecidableEq

namespace Statement

/-- A value bound to a parameter. -/
inductive Argument
  | text (s : String)
  | number (n : Nat)
  deriving DecidableEq

/-- What the database replies: the rows that were selected, or how many were affected. -/
@[reducible] def Reply : Statement → Type
  | select .. => List Row
  | _ => Nat

open Identifier (quoted)

/-- The columns that make up a comment. -/
def columns : String := quoted .id ++ ", " ++ quoted .videoId ++ ", " ++ quoted .content

/-- The text of a statement, its parameters numbered from one. -/
def text : Statement → String
  | .select _ limit _ =>
    "SELECT " ++ columns ++ " FROM " ++ quoted .table ++ " WHERE " ++ quoted .videoId ++
      " = $1 ORDER BY " ++ quoted .createdAt ++ " ASC, " ++ quoted .id ++ " ASC" ++
      (if limit.isSome then " LIMIT $2 OFFSET $3" else " OFFSET $2")
  | .insert .. => "INSERT INTO " ++ quoted .table ++ " (" ++ columns ++ ") VALUES ($1, $2, $3)"
  | .update .. =>
    "UPDATE " ++ quoted .table ++ " SET " ++ quoted .content ++ " = $1, " ++ quoted .updatedAt ++
      " = CURRENT_TIMESTAMP WHERE " ++ quoted .id ++ " = $2"
  | .delete _ => "DELETE FROM " ++ quoted .table ++ " WHERE " ++ quoted .id ++ " = $1"
  | .deleteByVideo _ => "DELETE FROM " ++ quoted .table ++ " WHERE " ++ quoted .videoId ++ " = $1"

/-- The values bound to the parameters, in their order. -/
def arguments : Statement → List Argument
  | .select video limit offset =>
    .text video :: (limit.map Argument.number).toList ++ [.number offset]
  | .insert id video content => [.text id.text, .text video, .text content]
  | .update id content => [.text content, .text id.text]
  | .delete id => [.text id.text]
  | .deleteByVideo video => [.text video]

/-- What a statement does to the table. -/
def run (s : Statement) (t : Table) : s.Reply × Table :=
  match s with
  | .select video limit offset =>
    let rest := (t.ofVideo video).drop offset
    (match limit with
      | some n => rest.take n
      | none => rest, t)
  | .insert id video content => ((1 : Nat), t.insert id video content)
  | .update id content => (t.count (·.id = id), t.setContent id content)
  | .delete id => (t.count (·.id = id), t.remove (·.id = id))
  | .deleteByVideo video => (t.count (·.video = video), t.remove (·.video = video))

end Statement

end VideoComments

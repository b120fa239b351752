import VideoComments.Comment
import VideoComments.Failure

/-!
# The table of comments

Rows are kept in the order of insertion, each with the time at which it was created; times come from
a counter that stays ahead of every row. Listings are ordered by time of creation and then by
identifier, whatever the order of the rows.
-/

namespace VideoComments

/-- A stored comment. Content may be missing in a row that was written by other hands. -/
structure Row where
  id : Uuid
  video : String
  content : Option String
  createdAt : Int
  deriving DecidableEq

namespace Row

/-- Does a row come no later than another in a listing? -/
def precedes (a b : Row) : Bool :=
  a.createdAt < b.createdAt || (a.createdAt = b.createdAt && a.id.toNat ≤ b.id.toNat)

/-- The comment in a row. -/
def comment (r : Row) : Except DatabaseError Comment :=
  match r.content with
  | some content => .ok { id := r.id, video := r.video, content }
  | none => .error (.unexpectedNull "content")

end Row

/-- All stored comments. -/
structure Table where
  rows : List Row := []
  /-- The time that the next row gets. -/
  next : Int := 0

namespace Table

/-! ## Listing -/

/-- The rows of a video, in the order of a listing. -/
def ofVideo (t : Table) (video : String) : List Row :=
  (t.rows.filter fun r => r.video = video).mergeSort Row.precedes

/-- The part of a list that starts at `offset` and has `limit` entries at most. A negative offset
counts as zero, and without a positive limit nothing is cut off. -/
def page {α : Type} (limit offset : Int) (rows : List α) : List α :=
  let rest := rows.drop offset.toNat
  if 0 < limit then rest.take limit.toNat else rest

/-! ## Writing -/

/-- Adds a row that was created at a given time. -/
def insertAt (t : Table) (time : Int) (id : Uuid) (video : String) (content : Option String) :
    Table :=
  { rows := t.rows ++ [{ id, video, content, createdAt := time }], next := max t.next time + 1 }

/-- Adds a row that is created now. -/
def insert (t : Table) (id : Uuid) (video content : String) : Table :=
  t.insertAt t.next id video (some content)

/-- The number of rows that satisfy `p`. -/
def count (t : Table) (p : Row → Bool) : Nat := t.rows.countP p

/-- Replaces the content of the rows with an identifier. -/
def setContent (t : Table) (id : Uuid) (content : String) : Table :=
  { t with rows := t.rows.map fun r => if r.id = id then { r with content := some content } else r }

/-- Removes the rows that satisfy `p`. -/
def remove (t : Table) (p : Row → Bool) : Table := { t with rows := t.rows.filter fun r => !p r }

end Table

end VideoComments

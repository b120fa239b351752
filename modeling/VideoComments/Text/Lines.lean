/-!
# Lines of a text

A line ends at a line feed, which a carriage return may precede; neither belongs to the line. What
follows the last line feed is a line unless it is empty.
-/

namespace VideoComments.Lines

/-- A line without the carriage return at its end. -/
def dropReturn (cs : List Char) : List Char := if cs.getLast? = some '\r' then cs.dropLast else cs

/-- The lines of a list of characters. -/
def ofList (cs : List Char) : List (List Char) :=
  let parts := cs.splitOn '\n'
  parts.dropLast.map dropReturn ++ (parts.getLast?.filter (· ≠ [])).toList

/-- The lines of a text. -/
def ofText (s : String) : List String := (ofList s.toList).map String.ofList

end VideoComments.Lines

import VideoComments.Uuid

/-!
# Comments on videos
-/

namespace VideoComments

/-- A comment on a video. Its identifier is nil until a store assigns one. -/
structure Comment where
  id : Uuid := Uuid.nil
  video : String := ""
  content : String := ""
  deriving DecidableEq

end VideoComments

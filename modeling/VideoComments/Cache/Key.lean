import VideoComments.Text.Decimal

/-!
# Keys of the comment cache

Pages are cached under keys that hold everything a page depends on: its video, its limit and offset,
and the values of two counters. One counter belongs to all videos, the other to the page's own.
-/

namespace VideoComments.Cache.Key

/-- The counter that belongs to all videos. -/
def generation : String := "comments:generation"

/-- What the keys of a video begin with. -/
def ofVideo (video : String) : String := "comments:video_id=" ++ video

/-- The counter of one video. -/
def version (video : String) : String := ofVideo video ++ ":version"

/-- The key of a page under given values of the counters. -/
def page (video : String) (generation version limit offset : Int) : String :=
  ofVideo video ++ ":generation=" ++ Decimal.ofInt generation ++ ":version=" ++
    Decimal.ofInt version ++ ":limit=" ++ Decimal.ofInt limit ++ ":offset=" ++ Decimal.ofInt offset

end VideoComments.Cache.Key

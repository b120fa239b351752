import VideoComments.Cache.Client
import VideoComments.Cache.Key
import VideoComments.Comment.Page
import VideoComments.Repository.Basic

/-!
# Cached listings

A repository that keeps pages in a cache in front of another repository. A page is cached under the
values that two counters had before it was read; a write adds one to the counter that its comments
depend on, so that pages from before the write are not looked up any more. Creating a comment or
deleting those of a video counts for the video, updating or deleting one comment counts for all
videos.

A cache that fails never makes a call fail: its failures are logged, and listings read through. A
page is kept only under counters that could be read.
-/

namespace VideoComments.Repository

open Program
open Cache (Client)

/-- Reads a counter, an absent one being zero. -/
def readCounter (cache : Client) (key : String) : Program (Except Failure Int) := do
  match ← cache (.get key) with
  | .error failure => return .error failure
  | .ok none => return .ok 0
  | .ok (some value) =>
    match Decimal.int64? value.toList with
    | some i => return .ok i
    | none => return .error (.internal ("counter " ++ key ++ " holds `" ++ value ++ "`"))

/-- Reads the counter of all videos and then the counter of one. -/
def readCounters (cache : Client) (video : String) : Program (Except Failure (Int × Int)) := do
  match ← readCounter cache Cache.Key.generation with
  | .error failure => return .error failure
  | .ok generation =>
    match ← readCounter cache (Cache.Key.version video) with
    | .error failure => return .error failure
    | .ok version => return .ok (generation, version)

/-- The key of a page now, unless the counters cannot be read. -/
def pageKey (cache : Client) (video : String) (limit offset : Int) : Program (Option String) := do
  match ← readCounters cache video with
  | .ok (generation, version) => return some (Cache.Key.page video generation version limit offset)
  | .error failure =>
    log .error ("Comment cache unavailable, reading through: " ++ failure.message)
    return none

/-- Drops a value that is no page. -/
def dropPage (cache : Client) (key : String) : Program Unit := do
  -- The log marks where the reader's own wording would stand.
  log .error ("Failed to deserialize cached comments under " ++ key ++ ": <json error>")
  match ← cache (.delete key) with
  | .ok () => return ()
  | .error failure => log .error ("Failed to delete key " ++ key ++ ": " ++ failure.message)

/-- The page under a key. A value that is no page is dropped. -/
def cachedPage (cache : Client) (key : String) : Program (Option (List Comment)) := do
  match ← cache (.get key) with
  | .error failure =>
    log .error ("Redis get error for key " ++ key ++ ": " ++ failure.message)
    return none
  | .ok none => return none
  | .ok (some text) =>
    match Page.decode? text with
    | some comments => return some comments
    | none =>
      dropPage cache key
      return none

/-- Keeps a page under a key. -/
def storePage (cache : Client) (lifetime : Duration) (key : String) (comments : List Comment) :
    Program Unit := do
  match ← cache (.set key (Page.encode comments) lifetime) with
  | .ok () => return ()
  | .error failure => log .error ("Failed to set cache for key " ++ key ++ ": " ++ failure.message)

/-- Adds one to a counter, after which the pages that depend on it are not looked up any more. -/
def invalidate (cache : Client) (counter : String) : Program Unit := do
  match ← cache (.increment counter) with
  | .ok value => log .debug ("Bumped " ++ counter ++ " to " ++ Decimal.ofInt value)
  | .error failure =>
    log .error ("Failed to invalidate cached comments via " ++ counter ++ ": " ++ failure.message)

/-- Lists a page from the cache, or from the inner repository, whose answer is then kept. -/
def listCached (inner : Repository) (cache : Client) (lifetime : Duration) (video : String)
    (limit offset : Int) : Program (Except Failure (List Comment)) := do
  match ← pageKey cache video limit offset with
  | none => inner (.list video limit offset)
  | some key =>
    match ← cachedPage cache key with
    | some comments => return .ok comments
    | none =>
      match ← inner (.list video limit offset) with
      | .error failure => return .error failure
      | .ok comments =>
        storePage cache lifetime key comments
        return .ok comments

/-- The counter that a write adds one to. -/
def counterOf : Operation → Option String
  | .list .. => none
  | .create comment => some (Cache.Key.version comment.video)
  | .update _ => some Cache.Key.generation
  | .delete _ => some Cache.Key.generation
  | .deleteByVideo video => some (Cache.Key.version video)

/-- Writes through, and invalidates the pages that a successful write has made stale. -/
def writeThrough (inner : Repository) (cache : Client) (op : Operation) :
    Program (Except Failure op.Answer) := do
  match ← inner op with
  | .error failure => return .error failure
  | .ok answer =>
    match counterOf op with
    | none => return .ok answer
    | some counter =>
      invalidate cache counter
      return .ok answer

/-- Keeps the pages of a repository in a cache, each for a given lifetime. -/
def cached (inner : Repository) (cache : Client) (lifetime : Duration) : Repository
  | .list video limit offset => listCached inner cache lifetime video limit offset
  | op => writeThrough inner cache op

end VideoComments.Repository

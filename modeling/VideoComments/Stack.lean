import VideoComments.Config
import VideoComments.Metrics.Exposition
import VideoComments.Repository.Cached
import VideoComments.Rpc.Server
import VideoComments.World

/-!
# Putting the service together

A repository over a store of comments, behind a cache if there is one; and the state of a running
service, which is such a repository over a database and, if given, a Redis server.
-/

namespace VideoComments

/-- Where comments are stored. -/
inductive StoreKind
  | memory
  | database
  deriving DecidableEq

/-- Where pages are cached. -/
inductive CacheKind
  | memory
  | redis
  deriving DecidableEq

/-- The repository over a store. -/
def StoreKind.repository : StoreKind → Repository
  | memory => .direct
  | database => .database

/-- The client of a cache. -/
def CacheKind.client : CacheKind → Cache.Client
  | memory => .direct
  | redis => .redis

/-- What a service is put together from. -/
structure Stack where
  store : StoreKind
  cache : Option CacheKind
  lifetime : Duration
  deriving DecidableEq

namespace Stack

/-- The repository of a stack. -/
def repository (s : Stack) : Repository :=
  match s.cache with
  | none => s.store.repository
  | some kind => .cached s.store.repository kind.client s.lifetime

/-- What a configuration asks for: a database, and a Redis server if it names one. -/
def ofConfig (c : Config) : Stack where
  store := .database
  cache := c.redisUrl.map fun _ => .redis
  lifetime := .ofSeconds c.cacheTtlSeconds

/-- Does a running service come with this store and cache? -/
def isDeployed (s : Stack) : Bool := s.store = .database && s.cache ≠ some .memory

/-- What the log says when a running service is put together. -/
def openingLines (s : Stack) : List LogLine :=
  if s.cache.isSome then [⟨.info, "Caching comment listings for " ++ s.lifetime.text⟩] else []

end Stack

end VideoComments

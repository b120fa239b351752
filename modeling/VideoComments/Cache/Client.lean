import VideoComments.Program

/-!
# Clients of a cache

A client carries out the operations on a cache as programs: directly, or by commands to a Redis
server. Lifetimes reach the server in whole seconds, rounded down.
-/

namespace VideoComments.Cache

open Program

/-- How the operations on a cache are carried out. -/
abbrev Client := (op : Operation) → Program (Except Failure op.Answer)

namespace Client

/-- Asks the cache itself. -/
def direct : Client := fun op => ask (.cache op)

/-- Reads a key from the server. -/
def redisGet (key : String) : Program (Except Failure (Option String)) := do
  match ← ask (.redis (.get key)) with
  | .error failure => return .error failure
  | .ok (some value) => return (Operation.valueText value).map some
  | .ok none =>
    log .debug ("Cache miss for key " ++ key)
    return .ok none

/-- Sets a key on the server. -/
def redisSet (key value : String) (lifetime : Duration) : Program (Except Failure Unit) := do
  match ← ask (.redis (.setEx key value lifetime.seconds)) with
  | .error failure => return .error failure
  | .ok () =>
    log .debug ("Cached data under key " ++ key ++ " with TTL " ++ lifetime.text)
    return .ok ()

/-- Sends commands to a Redis server. -/
def redis : Client
  | .get key => redisGet key
  | .set key value lifetime => redisSet key value lifetime
  | .delete key => ask (.redis (.del key))
  | .increment key => ask (.redis (.incrBy key))

end Client

end VideoComments.Cache

import VideoComments.Cache.Entries
import VideoComments.Failure

/-!
# Commands to a Redis server

The commands that the service sends, what the server replies, and what they do to its entries.

Setting a key with a lifetime is refused unless the lifetime is positive and, counted in
milliseconds, fits in 64 bits, one of them the sign.
-/

namespace VideoComments.Redis

open Cache (Entry Entries)

/-- A command. -/
inductive Command
  | get (key : String)
  | setEx (key value : String) (seconds : Nat)
  | del (key : String)
  | incrBy (key : String)
  | ping
  deriving DecidableEq

namespace Command

/-- The name of a command and its arguments. -/
def words : Command → List String
  | get key => ["GET", key]
  | setEx key value seconds => ["SETEX", key, Decimal.ofNat seconds, value]
  | del key => ["DEL", key]
  | incrBy key => ["INCRBY", key, "1"]
  | ping => ["PING"]

/-- What the server replies to a command that succeeds. -/
@[reducible] def Reply : Command → Type
  | get _ => Option (List UInt8)
  | setEx .. => Unit
  | del _ => Unit
  | incrBy _ => Int
  | ping => Unit

/-- Does the server take this lifetime? -/
def acceptsLifetime (seconds : Nat) : Bool :=
  0 < seconds && 1000 * seconds ≤ Int64.maxValue.toNatClampNeg

/-- The effect of a command on the entries at a time. An error reply changes nothing. -/
def apply (c : Command) (now : Nat) (es : Entries) : Except CacheError c.Reply × Entries :=
  match c with
  | get key => (.ok ((es.live? now key).map Entry.value), es)
  | setEx key value seconds =>
    if acceptsLifetime seconds then
      (.ok (), es.put key { value := Utf8.encode value, expiry := some (now + 1000 * seconds) })
    else (.error (.ofReply "ERR invalid expire time in 'setex' command"), es)
  | del key => (.ok (), es.erase key)
  | incrBy key =>
    let (result, es) := es.increment now key
    (result.mapError fun fault => .ofReply ("ERR " ++ fault.message), es)
  | ping => (.ok (), es)

end Command

end VideoComments.Redis

import VideoComments.Cache.Entries
import VideoComments.Failure

/-!
# Operations on a cache

What a cache is asked for, what it answers when nothing fails, and what the operation means for the
entries.
-/

namespace VideoComments.Cache

/-- A request to a cache. -/
inductive Operation
  | get (key : String)
  | set (key value : String) (lifetime : Duration)
  | delete (key : String)
  /-- Add one to a counter, which starts at zero. -/
  | increment (key : String)
  deriving DecidableEq

namespace Operation

/-- What a successful operation answers. -/
@[reducible] def Answer : Operation → Type
  | get _ => Option String
  | set .. => Unit
  | delete _ => Unit
  | increment _ => Int

/-- A value as text. -/
def valueText (value : List UInt8) : Except Failure String :=
  match Utf8.decode? value with
  | some s => .ok s
  | none => .error (.cache .notText)

/-- The effect of an operation on the entries at a time. -/
def apply (op : Operation) (now : Nat) (es : Entries) : Except Failure op.Answer × Entries :=
  match op with
  | get key =>
    (match es.live? now key with
      | some e => (valueText e.value).map some
      | none => .ok none, es)
  | set key value lifetime =>
    (.ok (), es.put key
      { value := Utf8.encode value, expiry := some (now + lifetime.milliseconds) })
  | delete key => (.ok (), es.erase key)
  | increment key =>
    let (result, es) := es.increment now key
    (result.mapError fun fault => .internal fault.message, es)

end Operation

end VideoComments.Cache

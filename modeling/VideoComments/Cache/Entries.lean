import VideoComments.Text.Decimal
import VideoComments.Text.Utf8
import VideoComments.Duration

/-!
# Entries of a key-value cache

A cache holds at most one value under a key, with or without a time of expiry. Values are bytes;
counters are values that spell an integer of 64 bits in canonical form. An entry whose time has come
is as good as absent.

* `Entries.live?` looks a key up, `Entries.put` and `Entries.erase` change it.
* `Entries.increment` adds one to a counter and keeps its expiry.
-/

namespace VideoComments.Cache

/-- A value, and the time from which on it is gone. -/
structure Entry where
  value : List UInt8
  expiry : Option Nat := none
  deriving DecidableEq

/-- Is the entry still there at a time? -/
def Entry.isLive (now : Nat) (e : Entry) : Bool :=
  match e.expiry with
  | some time => now < time
  | none => true

/-- Keys with their entries, each key once. -/
abbrev Entries := List (String × Entry)

/-- Why a counter cannot be incremented. -/
inductive CounterFault
  | notInteger
  | overflow
  deriving DecidableEq

/-- The wording of a counter fault. -/
def CounterFault.message : CounterFault → String
  | .notInteger => "value is not an integer or out of range"
  | .overflow => "increment or decrement would overflow"

namespace Entries

/-- The entry under a key at a time. -/
def live? (es : Entries) (now : Nat) (key : String) : Option Entry :=
  (es.lookup key).filter (Entry.isLive now)

/-- Removes a key. -/
def erase (es : Entries) (key : String) : Entries := es.filter fun e => e.1 ≠ key

/-- Sets the entry under a key. -/
def put (es : Entries) (key : String) (e : Entry) : Entries := (key, e) :: es.erase key

/-- The value under a key as a counter, an absent one being zero. -/
def counter (es : Entries) (now : Nat) (key : String) : Except CounterFault Int :=
  match es.live? now key with
  | none => .ok 0
  | some e =>
    match (Utf8.decode? e.value).bind fun s => Decimal.canonical? s.toList with
    | some i => .ok i
    | none => .error .notInteger

/-- Adds one to a counter. A counter at the top of its range stays as it is. -/
def increment (es : Entries) (now : Nat) (key : String) : Except CounterFault Int × Entries :=
  match es.counter now key with
  | .error fault => (.error fault, es)
  | .ok i =>
    if Decimal.fitsInt64 (i + 1) then
      let expiry := (es.live? now key).bind Entry.expiry
      (.ok (i + 1), es.put key { value := Utf8.encode (Decimal.ofInt (i + 1)), expiry })
    else (.error .overflow, es)

/-- The entries that are still there at a time, ordered by their keys. -/
def liveList (es : Entries) (now : Nat) : List (String × Entry) :=
  (es.filter fun e => e.2.isLive now).mergeSort fun a b => a.1 ≤ b.1

end Entries

end VideoComments.Cache

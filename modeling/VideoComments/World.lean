import VideoComments.Link
import VideoComments.Program

/-!
# The world of the service

Everything that answers calls and receives signals: the table of comments, the entries of the cache,
the clock, the links to the servers, and failures that are due. Each call to the store or to the
cache is noted and then takes the failure that is due next, if any; failures do nothing else. What
the service says of itself is noted as well.

* `World.handler` answers one call after another.
* `World.perform` runs a program to its end.
-/

namespace VideoComments

/-- What has been noted while programs ran. -/
structure Trace where
  calls : List Call := []
  logs : List LogLine := []
  spans : List Span := []

/-- The state of everything around the service. -/
structure World where
  now : Nat := 0
  table : Table := {}
  /-- How many identifiers have been handed out. -/
  created : Nat := 0
  entries : Cache.Entries := []
  /-- What happens to the next calls to the store: nothing, or a failure. -/
  storeFaults : List (Option Failure) := []
  /-- What happens to the next calls to the cache. -/
  cacheFaults : List (Option Failure) := []
  database : Link := .up
  redis : Link := .up
  trace : Trace := {}
  metrics : Metrics := {}

namespace World

/-! ## Calls -/

/-- Notes a call. -/
def note (w : World) (c : Call) : World :=
  { w with trace := { w.trace with calls := w.trace.calls ++ [c] } }

/-- Takes the failure that is due for the store. -/
def takeStoreFault (w : World) : Option Failure × World :=
  (w.storeFaults.head?.join, { w with storeFaults := w.storeFaults.tail })

/-- Takes the failure that is due for the cache. -/
def takeCacheFault (w : World) : Option Failure × World :=
  (w.cacheFaults.head?.join, { w with cacheFaults := w.cacheFaults.tail })

/-- A fresh identifier. -/
def freshId (w : World) : Uuid × World :=
  (.numbered (w.created + 1), { w with created := w.created + 1 })

/-- Carries out an operation on the store, which draws an identifier for every new comment. -/
def answerStore (op : Operation) (w : World) : Except Failure op.Answer × World :=
  let w := w.note (.store op)
  let (fresh, w) :=
    match op with
    | .create _ => w.freshId
    | _ => (.nil, w)
  match w.takeStoreFault with
  | (some failure, w) => (.error failure, w)
  | (none, w) =>
    let (answer, table) := op.apply fresh w.table
    (answer, { w with table })

/-- Sends a statement to the database. -/
def answerStatement (s : Statement) (w : World) : Except Failure s.Reply × World :=
  match w.database with
  | .down cause => (.error (.database (.unreachable cause)), w)
  | .up =>
    match (w.note (.statement s)).takeStoreFault with
    | (some failure, w) => (.error failure, w)
    | (none, w) =>
      let (reply, table) := s.run w.table
      (.ok reply, { w with table })

/-- Carries out an operation on the cache. -/
def answerCache (op : Cache.Operation) (w : World) : Except Failure op.Answer × World :=
  match (w.note (.cache op)).takeCacheFault with
  | (some failure, w) => (.error failure, w)
  | (none, w) =>
    let (answer, entries) := op.apply w.now w.entries
    (answer, { w with entries })

/-- Sends a command to the Redis server. -/
def answerRedis (c : Redis.Command) (w : World) : Except Failure c.Reply × World :=
  match w.redis with
  | .down cause => (.error (.cache (.unreachable cause)), w)
  | .up =>
    match (w.note (.redis c)).takeCacheFault with
    | (some failure, w) => (.error failure, w)
    | (none, w) =>
      let (reply, entries) := c.apply w.now w.entries
      (reply.mapError .cache, { w with entries })

/-- Answers a call. -/
def answer : (c : Call) → World → c.Answer × World
  | .clock, w => (w.now, w)
  | .freshId, w => w.freshId
  | .store op, w => w.answerStore op
  | .statement s, w => w.answerStatement s
  | .cache op, w => w.answerCache op
  | .redis c, w => w.answerRedis c

/-! ## Signals -/

/-- Notes a signal. -/
def receive (signal : Signal) (w : World) : World :=
  match signal with
  | .log line => { w with trace := { w.trace with logs := w.trace.logs ++ [line] } }
  | .span s => { w with trace := { w.trace with spans := w.trace.spans ++ [s] } }
  | .request labels seconds => { w with metrics := w.metrics.record labels seconds }

/-- The world answers calls and receives signals. -/
def handler : Program.Handler World := { answer, receive }

/-- Runs a program to its end, and gives what was noted meanwhile apart from the world. -/
def perform {α : Type} (w : World) (p : Program α) : α × Trace × World :=
  let (a, w) := p.run handler { w with trace := {} }
  (a, w.trace, { w with trace := {} })

/-! ## What happens between calls -/

/-- Time passes. -/
def advance (w : World) (milliseconds : Nat) : World := { w with now := w.now + milliseconds }

/-- Somebody else writes a row, now or at a given time. -/
def insertRow (w : World) (time : Option Int) (id : Uuid) (video : String)
    (content : Option String) : World :=
  { w with table := w.table.insertAt (time.getD w.table.next) id video content }

/-- Somebody else sets a key, without expiry. -/
def setKey (w : World) (key : String) (value : List UInt8) : World :=
  { w with entries := w.entries.put key { value } }

/-- The entries that are still there: key, value, and the milliseconds left to each that expires. -/
def liveEntries (w : World) : List (String × List UInt8 × Option Nat) :=
  (w.entries.liveList w.now).map fun e => (e.1, e.2.value, e.2.expiry.map (· - w.now))

end World

end VideoComments

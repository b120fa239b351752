import Mathlib.Logic.Function.Basic
import VideoComments.Proofs.Cache.Working
import VideoComments.Proofs.Simulation

/-!
# A cache as a map

A `Shelf` is a map from keys to texts that may expire. An operation concerns what is under its own
key, and `Operation.onCell` says what it answers and what it leaves there. Entries hold a shelf if
they have its texts under its keys (`Entries.Holds`). On a server that can be reached an operation
answers what it answers on the shelf, and the entries go on holding the shelf
(`Client.redis_holds`).
-/

namespace VideoComments.Cache

open Function (update)

/-! ## Shelves -/

/-- A text, and the time from which on it is gone, if there is one. -/
structure Cell where
  value : String
  expiry : Option Nat := none
  deriving DecidableEq

/-- Is the text still there at a time? -/
def Cell.isThere (now : Nat) (c : Cell) : Bool := c.expiry.all (now < ·)

/-- What is kept under each key. -/
abbrev Shelf := String → Option Cell

namespace Operation

/-- The key that an operation is about. -/
def key : Operation → String
  | get key => key
  | set key _ _ => key
  | delete key => key
  | increment key => key

/-- The failure of an increment. -/
def refusal (fault : CounterFault) : Failure := .cache (.ofReply ("ERR " ++ fault.message))

/-- What an operation answers at a time, given what is under its key, and what it leaves there.

* A look-up answers what is still there.
* What is set has a new text and a new expiry.
* A deletion succeeds also if nothing is there.
* An increment takes nothing for zero, and then leaves a one that does not expire. Of an integer of
  64 bits that is written as integers are, and is not the last one, it makes the next, which expires
  as before. Otherwise it fails and leaves what is there. -/
def onCell (now : Nat) : (op : Operation) → Option Cell → Except Failure op.Answer × Option Cell
  | get _, c? => (.ok ((c?.filter (Cell.isThere now)).map Cell.value), c?)
  | set _ value lifetime, _ =>
    (.ok (), some { value, expiry := some (now + lifetime.milliseconds) })
  | delete _, _ => (.ok (), none)
  | increment _, c? =>
    match c?.filter (Cell.isThere now) with
    | none => (.ok 1, some { value := "1" })
    | some c =>
      match Decimal.canonical? c.value.toList with
      | none => (.error (refusal .notInteger), c?)
      | some i =>
        if i < Int64.maxValue.toInt then
          (.ok (i + 1), some { c with value := Decimal.ofInt (i + 1) })
        else (.error (refusal .overflow), c?)

end Operation

/-- What an operation answers at a time, and what it makes of a shelf. -/
def Shelf.apply (s : Shelf) (now : Nat) (op : Operation) : Except Failure op.Answer × Shelf :=
  let (answer, c?) := op.onCell now (s op.key)
  (answer, update s op.key c?)

/-- Other keys are left alone. -/
theorem Shelf.apply_of_ne {s : Shelf} {now : Nat} {op : Operation} {key : String}
    (h : key ≠ op.key) : (s.apply now op).2 key = s key :=
  Function.update_of_ne h _ _

/-- Other keys do not matter. -/
theorem Shelf.apply_congr {s s' : Shelf} {op : Operation} (h : s op.key = s' op.key) (now : Nat) :
    (s.apply now op).1 = (s'.apply now op).1 ∧
      (s.apply now op).2 op.key = (s'.apply now op).2 op.key := by
  have hself : ∀ s : Shelf, (s.apply now op).2 op.key = (op.onCell now (s op.key)).2 := fun _ =>
    Function.update_self ..
  rw [hself, hself, ← h]
  exact ⟨congrArg (fun c? => (op.onCell now c?).1) h, rfl⟩

/-! ## Entries that hold a shelf -/

/-- The entry of a cell. -/
def Cell.entry (c : Cell) : Entry := { value := Utf8.encode c.value, expiry := c.expiry }

theorem Cell.isLive_entry (now : Nat) (c : Cell) : c.entry.isLive now = c.isThere now := by
  cases h : c.expiry <;> simp [entry, isThere, Entry.isLive, h]

namespace Entries

/-- The entries have the texts of the shelf under its keys, and nothing else. -/
def Holds (es : Entries) (s : Shelf) : Prop := ∀ key, es.lookup key = (s key).map Cell.entry

theorem holds_nil : Holds [] fun _ => none := fun _ => rfl

variable {es : Entries} {s : Shelf} (h : es.Holds s)

include h

theorem Holds.live? (now : Nat) (key : String) :
    es.live? now key = ((s key).filter (Cell.isThere now)).map Cell.entry := by
  rw [Entries.live?, h key, Option.filter_map]
  exact congrArg (fun p => ((s key).filter p).map Cell.entry) (funext (Cell.isLive_entry now))

theorem Holds.keep (key : String) : es.Holds (update s key (s key)) := by
  rw [Function.update_eq_self]
  exact h

theorem Holds.put (key : String) (c : Cell) :
    (es.put key c.entry).Holds (update s key (some c)) := by
  intro key'
  rw [lookup_put, Function.update_apply, h key']
  split <;> rfl

theorem Holds.erase (key : String) : (es.erase key).Holds (update s key none) := by
  intro key'
  rw [lookup_erase, Function.update_apply, h key']
  split <;> rfl

/-- An increment of the entries is one of the shelf. -/
theorem Holds.increment (now : Nat) (key : String) :
    (es.increment now key).1.mapError Operation.refusal = (s.apply now (.increment key)).1 ∧
      (es.increment now key).2.Holds (s.apply now (.increment key)).2 := by
  have hlive := h.live? now key
  rw [Shelf.apply, Operation.onCell, Operation.key]
  cases hthere : (s key).filter (Cell.isThere now) with
  | none =>
    have hfits : Decimal.fitsInt64 (0 + 1) = true := by decide
    have hone : Decimal.ofInt (0 + 1) = "1" := by decide +kernel
    rw [hthere] at hlive
    simp only [Entries.increment, counter, hlive, Option.map_none, hfits, if_true, hone]
    exact ⟨rfl, h.put key { value := "1" }⟩
  | some c =>
    rw [hthere] at hlive
    simp only [Entries.increment, counter, hlive, Option.map_some, Cell.entry, Utf8.decode?_encode,
      Option.bind_some]
    cases hspelt : Decimal.canonical? c.value.toList with
    | none => exact ⟨rfl, h.keep key⟩
    | some i =>
      simp only [Decimal.fitsInt64_succ_iff (Decimal.canonical?_eq_some_iff.1 hspelt).1]
      split
      · exact ⟨rfl, h.put key { c with value := Decimal.ofInt (i + 1) }⟩
      · exact ⟨rfl, h.keep key⟩

end Entries

/-! ## A server that holds a shelf -/

/-- The lifetime is whole seconds, and the server takes it. -/
def Operation.Accepted : Operation → Prop
  | set _ _ lifetime =>
    ∃ seconds, Redis.Command.acceptsLifetime seconds = true ∧ lifetime = .ofSeconds seconds
  | _ => True

/-- A look-up leaves the entries as they are. -/
theorem Operation.Outcome.entries_of_get {now : Nat} {es es' : Entries} {key : String}
    {answer : Except Failure (Option String)} (h : Outcome now es (.get key) answer es') :
    es' = es := by
  cases h <;> rfl

namespace Client

variable {w : World} {s : Shelf} (hw : w.CacheWorks .redis) (h : w.entries.Holds s)

include hw h

theorem redisGet_holds (key : String) :
    ((redisGet key).run World.handler w).1 = (s.apply w.now (.get key)).1 ∧
      ((redisGet key).run World.handler w).2.entries.Holds (s.apply w.now (.get key)).2 := by
  have hanswer := CacheKind.client_get hw key
  have hoperation : (Operation.apply (.get key) w.now w.entries).1 =
      (s.apply w.now (.get key)).1 := by
    rw [Operation.apply, h.live?, Shelf.apply, Operation.onCell, Operation.key]
    cases (s key).filter (Cell.isThere w.now) with
    | none => rfl
    | some c =>
      simp only [Option.map_some, Operation.valueText, Cell.entry, Utf8.decode?_encode]
      rfl
  have hentries : ((redisGet key).run World.handler w).2.entries = w.entries :=
    (redisGet_does key w).1.entries_of_get
  refine ⟨hanswer.trans hoperation, ?_⟩
  rw [hentries]
  exact h.keep key

theorem redisSet_holds (key value : String) {seconds : Nat}
    (haccepts : Redis.Command.acceptsLifetime seconds = true) :
    ((redisSet key value (.ofSeconds seconds)).run World.handler w).1 =
        (s.apply w.now (.set key value (.ofSeconds seconds))).1 ∧
      ((redisSet key value (.ofSeconds seconds)).run World.handler w).2.entries.Holds
        (s.apply w.now (.set key value (.ofSeconds seconds))).2 := by
  obtain ⟨hanswer, hes⟩ := hw.answerRedis (.setEx key value seconds)
  simp only [Redis.Command.apply, haccepts, if_true] at hanswer hes
  replace hanswer : (w.answerRedis (.setEx key value seconds)).1 = .ok () := hanswer
  rw [redisSet, Program.run_bind, Program.run_ask, World.handler_redis,
    Duration.seconds_ofSeconds, hanswer]
  refine ⟨rfl, ?_⟩
  simp only [Program.run_bind, Program.run_log, Program.run_pure, World.handler_receive,
    World.entries_receive, hes]
  exact h.put key { value, expiry := some (w.now + 1000 * seconds) }

theorem redisDelete_holds (key : String) :
    (w.answerRedis (.del key)).1 = (s.apply w.now (.delete key)).1 ∧
      (w.answerRedis (.del key)).2.entries.Holds (s.apply w.now (.delete key)).2 := by
  obtain ⟨hanswer, hes⟩ := hw.answerRedis (.del key)
  rw [hanswer, hes]
  exact ⟨rfl, h.erase key⟩

theorem redisIncrement_holds (key : String) :
    (w.answerRedis (.incrBy key)).1 = (s.apply w.now (.increment key)).1 ∧
      (w.answerRedis (.incrBy key)).2.entries.Holds (s.apply w.now (.increment key)).2 := by
  obtain ⟨hanswer, hes⟩ := hw.answerRedis (.incrBy key)
  obtain ⟨hincrement, hholds⟩ := h.increment w.now key
  rw [hanswer, hes, ← hincrement]
  refine ⟨?_, hholds⟩
  have hreply : (Redis.Command.apply (.incrBy key) w.now w.entries).1 =
      (w.entries.increment w.now key).1.mapError fun fault => .ofReply ("ERR " ++ fault.message) :=
    rfl
  rw [hreply]
  cases (w.entries.increment w.now key).1 <;> rfl

/-- **A server that can be reached answers as the shelf that it holds**, and goes on holding it. -/
theorem redis_holds {op : Operation} (hop : op.Accepted) :
    ((redis op).run World.handler w).1 = (s.apply w.now op).1 ∧
      ((redis op).run World.handler w).2.entries.Holds (s.apply w.now op).2 := by
  cases op with
  | get key => exact redisGet_holds hw h key
  | set key value lifetime =>
    obtain ⟨seconds, haccepts, rfl⟩ := hop
    exact redisSet_holds hw h key value haccepts
  | delete key => exact redisDelete_holds hw h key
  | increment key => exact redisIncrement_holds hw h key

end Client

end VideoComments.Cache

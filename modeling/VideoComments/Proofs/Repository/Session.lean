import VideoComments.Proofs.Repository.Cached

/-!
# Calls one after another

A session is a sequence of calls to a repository by clients that wait for each other. Before each
call time may pass, pages may go from the cache before their time, and it is settled which of the
calls to the store and to the cache fail.

* `Repository.history` records what was called in which world, and what came of it.
* `Repository.finish` is the world after the session.
-/

namespace VideoComments

/-- A call, and what comes about before it. -/
structure Turn where
  op : Operation
  /-- The milliseconds that pass. -/
  wait : Nat := 0
  /-- The pages that go. -/
  expired : List Cache.PageName := []
  /-- What happens to the call to the store: nothing, or a failure. -/
  storeFault : Option Failure := none
  /-- What happens to the calls to the cache, one after another. -/
  cacheFaults : List (Option Failure) := []

/-- The world in which the call is made. -/
def Turn.start (t : Turn) (w : World) : World :=
  { w.advance t.wait with
    entries := t.expired.foldl (fun es page => es.erase page.key) w.entries
    storeFaults := [t.storeFault]
    cacheFaults := t.cacheFaults }

instance Operation.decidableEqAnswer : (op : Operation) → DecidableEq op.Answer
  | .list .. => inferInstanceAs (DecidableEq (List Comment))
  | .create _ => inferInstanceAs (DecidableEq Uuid)
  | .update _ | .delete _ | .deleteByVideo _ => inferInstanceAs (DecidableEq Unit)

/-- An operation and its answer. -/
abbrev Result := (op : Operation) × Except Failure op.Answer

/-- A call that was made. -/
structure Moment where
  /-- The world in which it was made. -/
  world : World
  result : Result
  exchanges : List Exchange

namespace Repository

/-- The call of a turn. -/
def moment (repository : Repository) (t : Turn) (w : World) : Moment where
  world := t.start w
  result := ⟨t.op, ((repository t.op).run World.handler (t.start w)).1⟩
  exchanges := (repository t.op).exchanges World.handler (t.start w)

/-- The world after a turn. -/
def next (repository : Repository) (t : Turn) (w : World) : World :=
  ((repository t.op).run World.handler (t.start w)).2

/-- The calls of a session. -/
def history (repository : Repository) : List Turn → World → List Moment
  | [], _ => []
  | t :: ts, w => repository.moment t w :: history repository ts (repository.next t w)

/-- The world after a session. -/
def finish (repository : Repository) : List Turn → World → World
  | [], w => w
  | t :: ts, w => finish repository ts (repository.next t w)

/-- A database behind a Redis server that keeps pages for a minute. -/
def minutely : Repository :=
  cached StoreKind.database.repository CacheKind.redis.client (.ofSeconds 60)

end Repository

/-! ## Before a call -/

namespace Turn

theorem shrinks_start (t : Turn) (w : World) : w.entries.Shrinks (t.start w).entries := by
  obtain ⟨op, wait, expired, storeFault, cacheFaults⟩ := t
  simp only [start]
  generalize w.entries = es
  induction expired generalizing es with
  | nil => exact .refl es
  | cons page pages ih => exact (Cache.Entries.shrinks_erase_page es _ _ _ _ _).trans (ih _)

@[simp] theorem now_start (t : Turn) (w : World) : (t.start w).now = w.now + t.wait := rfl

/-- Worlds with the same records meet a call in the same state of the store. -/
theorem sameStore_start (t : Turn) {w w' : World} (h : w.SameRecords w') :
    (t.start w).SameStore (t.start w') :=
  ⟨⟨congrArg (· + t.wait) h.now, h.table, h.created, h.database⟩, rfl⟩

end Turn

end VideoComments

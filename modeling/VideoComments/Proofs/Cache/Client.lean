import VideoComments.Proofs.Cache.Entries
import VideoComments.Proofs.Program
import VideoComments.Stack

/-!
# What a client does to the cache

`Operation.Outcome` lists what may become of an operation on the cache: it fails and changes
nothing, or it does what it says. Both clients keep to it, the one that asks the cache itself and
the one that sends commands to a Redis server (`client_does`), and they leave the store alone.
-/

namespace VideoComments

/-! ## Outcomes -/

namespace Cache.Operation

/-- What may become of an operation on the entries at a time. -/
inductive Outcome (now : Nat) (es : Entries) :
    (op : Operation) → Except Failure op.Answer → Entries → Prop
  | failed {op : Operation} (failure : Failure) : Outcome now es op (.error failure) es
  | absent {key : String} (h : es.live? now key = none) : Outcome now es (.get key) (.ok none) es
  | found {key text : String} {e : Entry} (h : es.live? now key = some e)
      (htext : Utf8.decode? e.value = some text) : Outcome now es (.get key) (.ok (some text)) es
  /-- A value stays no longer than its lifetime. -/
  | set {key value : String} {lifetime : Duration} {expiry : Nat}
      (h : expiry ≤ now + lifetime.milliseconds) :
      Outcome now es (.set key value lifetime) (.ok ())
        (es.put key { value := Utf8.encode value, expiry := some expiry })
  | deleted {key : String} : Outcome now es (.delete key) (.ok ()) (es.erase key)
  | incremented {key : String} {n : Int} {es' : Entries} (h : es.increment now key = (.ok n, es')) :
      Outcome now es (.increment key) (.ok n) es'

theorem outcome_apply (op : Operation) (now : Nat) (es : Entries) :
    op.Outcome now es (op.apply now es).1 (op.apply now es).2 := by
  cases op with
  | get key =>
    simp only [apply]
    cases h : es.live? now key with
    | none => exact .absent h
    | some e =>
      simp only [valueText]
      cases htext : Utf8.decode? e.value with
      | none => exact .failed _
      | some text => exact .found h htext
  | set key value lifetime => exact .set (Nat.le_refl _)
  | delete key => exact .deleted
  | increment key =>
    simp only [apply]
    cases h : es.increment now key with
    | mk result es' =>
      cases result with
      | ok n => exact .incremented h
      | error fault =>
        have heq := Entries.increment_error (congrArg Prod.fst h)
        rw [h] at heq
        simp only at heq
        rw [heq]
        exact .failed _

end Cache.Operation

/-! ## Clients in the world -/

namespace World

/-- The same time, the same rows, and the same identifiers to come. -/
structure SameRecords (w w' : World) : Prop where
  now : w'.now = w.now
  table : w'.table = w.table
  created : w'.created = w.created
  database : w'.database = w.database

theorem SameRecords.trans {w₁ w₂ w₃ : World} (h : w₁.SameRecords w₂) (h' : w₂.SameRecords w₃) :
    w₁.SameRecords w₃ :=
  ⟨h'.now.trans h.now, h'.table.trans h.table, h'.created.trans h.created,
    h'.database.trans h.database⟩

/-- The same but for the cache and for what has been noted. -/
structure SameStore (w w' : World) : Prop extends SameRecords w w' where
  storeFaults : w'.storeFaults = w.storeFaults

theorem SameStore.refl (w : World) : w.SameStore w := ⟨⟨rfl, rfl, rfl, rfl⟩, rfl⟩

theorem SameStore.trans {w₁ w₂ w₃ : World} (h : w₁.SameStore w₂) (h' : w₂.SameStore w₃) :
    w₁.SameStore w₃ :=
  ⟨h.toSameRecords.trans h'.toSameRecords, h'.storeFaults.trans h.storeFaults⟩

/-! Calls and signals reach the world one by one. -/

@[simp] theorem handler_clock (w : World) : handler.answer .clock w = (w.now, w) := rfl

@[simp] theorem handler_freshId (w : World) : handler.answer .freshId w = w.freshId := rfl

@[simp] theorem handler_store (op : Operation) (w : World) :
    handler.answer (.store op) w = w.answerStore op := rfl

@[simp] theorem handler_statement (s : Statement) (w : World) :
    handler.answer (.statement s) w = w.answerStatement s := rfl

@[simp] theorem handler_cache (op : Cache.Operation) (w : World) :
    handler.answer (.cache op) w = w.answerCache op := rfl

@[simp] theorem handler_redis (c : Redis.Command) (w : World) :
    handler.answer (.redis c) w = w.answerRedis c := rfl

@[simp] theorem handler_receive (signal : Signal) (w : World) :
    handler.receive signal w = w.receive signal := rfl

@[simp] theorem entries_receive (signal : Signal) (w : World) :
    (w.receive signal).entries = w.entries := by
  cases signal <;> rfl

@[simp] theorem now_receive (signal : Signal) (w : World) : (w.receive signal).now = w.now := by
  cases signal <;> rfl

theorem sameStore_receive (signal : Signal) (w : World) : w.SameStore (w.receive signal) := by
  cases signal <;> exact ⟨⟨rfl, rfl, rfl, rfl⟩, rfl⟩

theorem answerCache_spec (op : Cache.Operation) (w : World) :
    op.Outcome w.now w.entries (w.answerCache op).1 (w.answerCache op).2.entries ∧
      w.SameStore (w.answerCache op).2 := by
  unfold answerCache takeCacheFault
  cases (w.note (.cache op)).cacheFaults.head?.join with
  | some failure => exact ⟨.failed failure, ⟨rfl, rfl, rfl, rfl⟩, rfl⟩
  | none =>
    exact ⟨Cache.Operation.outcome_apply op w.now w.entries, ⟨rfl, rfl, rfl, rfl⟩, rfl⟩

/-- A command to the server fails on its way or takes effect. -/
theorem answerRedis_spec (c : Redis.Command) (w : World) :
    ((∃ failure, (w.answerRedis c).1 = .error failure ∧ (w.answerRedis c).2.entries = w.entries) ∨
      ((w.answerRedis c).1 = (c.apply w.now w.entries).1.mapError .cache ∧
        (w.answerRedis c).2.entries = (c.apply w.now w.entries).2)) ∧
      w.SameStore (w.answerRedis c).2 := by
  unfold answerRedis takeCacheFault
  cases w.redis with
  | down cause => exact ⟨.inl ⟨_, rfl, rfl⟩, .refl w⟩
  | up =>
    simp only
    cases (w.note (.redis c)).cacheFaults.head?.join with
    | some failure => exact ⟨.inl ⟨_, rfl, rfl⟩, ⟨rfl, rfl, rfl, rfl⟩, rfl⟩
    | none => exact ⟨.inr ⟨rfl, rfl⟩, ⟨rfl, rfl, rfl, rfl⟩, rfl⟩

end World

namespace Cache.Client

/-- What a client does in a world: what was asked may fail, and the store stays as it is. -/
def Does (op : Operation) (w : World) (r : Except Failure op.Answer × World) : Prop :=
  op.Outcome w.now w.entries r.1 r.2.entries ∧ w.SameStore r.2

theorem redisGet_does (key : String) (w : World) :
    Does (.get key) w ((redisGet key).run World.handler w) := by
  obtain ⟨h, hsame⟩ := w.answerRedis_spec (.get key)
  rw [redisGet, Program.run_bind, Program.run_ask, World.handler_redis]
  rcases h with ⟨failure, hanswer, hes⟩ | ⟨hanswer, hes⟩
  · rw [hanswer]
    exact ⟨hes ▸ .failed failure, hsame⟩
  · replace hanswer : (w.answerRedis (.get key)).1 =
        .ok ((w.entries.live? w.now key).map Entry.value) := hanswer
    replace hes : (w.answerRedis (.get key)).2.entries = w.entries := hes
    rw [hanswer]
    cases hlive : w.entries.live? w.now key with
    | none =>
      simp only [Option.map_none, Program.run_bind, Program.run_log, Program.run_pure,
        World.handler_receive]
      rw [Does, World.entries_receive, hes]
      exact ⟨.absent hlive, hsame.trans (World.sameStore_receive (.log _) _)⟩
    | some e =>
      simp only [Option.map_some, Program.run_pure, Operation.valueText]
      refine ⟨?_, hsame⟩
      rw [hes]
      cases htext : Utf8.decode? e.value with
      | none => exact .failed _
      | some text => exact .found hlive htext

theorem redisSet_does (key value : String) (lifetime : Duration) (w : World) :
    Does (.set key value lifetime) w ((redisSet key value lifetime).run World.handler w) := by
  obtain ⟨h, hsame⟩ := w.answerRedis_spec (.setEx key value lifetime.seconds)
  rw [redisSet, Program.run_bind, Program.run_ask, World.handler_redis]
  rcases h with ⟨failure, hanswer, hes⟩ | ⟨hanswer, hes⟩
  · rw [hanswer]
    exact ⟨hes ▸ .failed failure, hsame⟩
  · unfold Redis.Command.apply at hanswer hes
    by_cases haccept : Redis.Command.acceptsLifetime lifetime.seconds = true
    · simp only [haccept, if_true] at hanswer hes
      have hseconds : 1000 * lifetime.seconds ≤ lifetime.milliseconds := by
        rw [Duration.seconds]
        omega
      replace hanswer : (w.answerRedis (.setEx key value lifetime.seconds)).1 = .ok () := hanswer
      simp only [hanswer, Program.run_bind, Program.run_log, Program.run_pure,
        World.handler_receive]
      rw [Does, World.entries_receive, hes]
      exact ⟨.set (Nat.add_le_add_left hseconds w.now),
        hsame.trans (World.sameStore_receive (.log _) _)⟩
    · simp only [haccept, if_false, Bool.false_eq_true] at hanswer hes
      rw [hanswer]
      exact ⟨hes ▸ .failed _, hsame⟩

theorem redisDelete_does (key : String) (w : World) :
    Does (.delete key) w (w.answerRedis (.del key)) := by
  obtain ⟨h, hsame⟩ := w.answerRedis_spec (.del key)
  refine ⟨?_, hsame⟩
  rcases h with ⟨failure, hanswer, hes⟩ | ⟨hanswer, hes⟩
  · rw [hanswer, hes]
    exact .failed failure
  · rw [hanswer, hes]
    exact .deleted

theorem redisIncrement_does (key : String) (w : World) :
    Does (.increment key) w (w.answerRedis (.incrBy key)) := by
  obtain ⟨h, hsame⟩ := w.answerRedis_spec (.incrBy key)
  refine ⟨?_, hsame⟩
  rcases h with ⟨failure, hanswer, hes⟩ | ⟨hanswer, hes⟩
  · rw [hanswer, hes]
    exact .failed failure
  · simp only [Redis.Command.apply] at hanswer hes
    rw [hanswer, hes]
    cases h : w.entries.increment w.now key with
    | mk result es =>
      cases result with
      | ok n => exact .incremented h
      | error fault =>
        have heq := Entries.increment_error (congrArg Prod.fst h)
        rw [h] at heq
        rw [show es = w.entries from heq]
        exact .failed _

end Cache.Client

/-- **Both clients do what is asked of the cache, or fail and change nothing.** -/
theorem CacheKind.client_does (kind : CacheKind) (op : Cache.Operation) (w : World) :
    Cache.Client.Does op w ((kind.client op).run World.handler w) := by
  cases kind with
  | memory => exact w.answerCache_spec op
  | redis =>
    cases op with
    | get key => exact Cache.Client.redisGet_does key w
    | set key value lifetime => exact Cache.Client.redisSet_does key value lifetime w
    | delete key => exact Cache.Client.redisDelete_does key w
    | increment key => exact Cache.Client.redisIncrement_does key w

/-! ## Increments that fail -/

/-- Was a counter to be incremented, and was not? -/
def Exchange.isFailedIncrement : Exchange → Bool
  | ⟨.cache (.increment _), .error _⟩ => true
  | ⟨.redis (.incrBy _), .error _⟩ => true
  | _ => false

/-- A client reports an increment that failed where it failed. -/
theorem CacheKind.exists_isFailedIncrement (kind : CacheKind) (key : String) (w : World)
    (failure : Failure)
    (h : ((kind.client (.increment key)).run World.handler w).1 = .error failure) :
    ∃ x ∈ (kind.client (.increment key)).exchanges World.handler w, x.isFailedIncrement = true := by
  cases kind with
  | memory =>
    have hx : (CacheKind.memory.client (.increment key)).exchanges World.handler w =
        [⟨.cache (.increment key), (w.answerCache (.increment key)).1⟩] := rfl
    rw [hx, show (w.answerCache (.increment key)).1 = .error failure from h]
    exact ⟨_, List.mem_singleton_self _, rfl⟩
  | redis =>
    have hx : (CacheKind.redis.client (.increment key)).exchanges World.handler w =
        [⟨.redis (.incrBy key), (w.answerRedis (.incrBy key)).1⟩] := rfl
    rw [hx, show (w.answerRedis (.incrBy key)).1 = .error failure from h]
    exact ⟨_, List.mem_singleton_self _, rfl⟩

end VideoComments

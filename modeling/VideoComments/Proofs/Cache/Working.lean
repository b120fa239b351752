import VideoComments.Proofs.Cache.Client

/-!
# A cache that works

A cache works in a world if it can be reached and no failure is due for it (`World.CacheWorks`); no
program changes that (`World.CacheWorks.run`). On such a cache both clients do what an operation
means: a look-up answers what is there, a value that is set is there afterwards if the cache accepts
its lifetime, and a counter goes up unless it cannot.
-/

namespace VideoComments

/-- The lifetimes for which a cache keeps a value. -/
def CacheKind.Accepts : CacheKind → Duration → Prop
  | memory, lifetime => 0 < lifetime.milliseconds
  | redis, lifetime => Redis.Command.acceptsLifetime lifetime.seconds = true

instance CacheKind.decidableAccepts :
    (cache : CacheKind) → (lifetime : Duration) → Decidable (cache.Accepts lifetime)
  | memory, lifetime => inferInstanceAs (Decidable (0 < lifetime.milliseconds))
  | redis, lifetime =>
    inferInstanceAs (Decidable (Redis.Command.acceptsLifetime lifetime.seconds = true))

theorem Duration.seconds_ofSeconds (n : Nat) : (Duration.ofSeconds n).seconds = n := by
  rw [ofSeconds, seconds, Nat.mul_div_cancel_left n (by decide)]

namespace World

/-- The cache can be reached, and no failure is due for it. -/
structure CacheWorks (cache : CacheKind) (w : World) : Prop where
  link : cache = .redis → w.redis = .up
  faults : ∀ fault ∈ w.cacheFaults, fault = none

/-! ## It goes on working -/

/-- A call takes no time, leaves the way to the cache as it is, and takes at most the failure that
is due next. -/
theorem answer_leaves (c : Call) (w : World) :
    (answer c w).2.now = w.now ∧ (answer c w).2.redis = w.redis ∧
      ((answer c w).2.cacheFaults = w.cacheFaults ∨
        (answer c w).2.cacheFaults = w.cacheFaults.tail) := by
  obtain ⟨now, table, created, entries, storeFaults, cacheFaults, database, redis, trace, -⟩ := w
  cases c with
  | clock => exact ⟨rfl, rfl, .inl rfl⟩
  | freshId => exact ⟨rfl, rfl, .inl rfl⟩
  | store op =>
    rcases storeFaults with _ | ⟨_ | failure, faults⟩ <;> cases op <;> exact ⟨rfl, rfl, .inl rfl⟩
  | statement s =>
    cases database with
    | down cause => exact ⟨rfl, rfl, .inl rfl⟩
    | up => rcases storeFaults with _ | ⟨_ | failure, faults⟩ <;> exact ⟨rfl, rfl, .inl rfl⟩
  | cache op => rcases cacheFaults with _ | ⟨_ | failure, faults⟩ <;> exact ⟨rfl, rfl, .inr rfl⟩
  | redis c =>
    cases redis with
    | down cause => exact ⟨rfl, rfl, .inl rfl⟩
    | up => rcases cacheFaults with _ | ⟨_ | failure, faults⟩ <;> exact ⟨rfl, rfl, .inr rfl⟩

/-- No program takes time or changes the way to the cache. -/
theorem run_leaves {α : Type} (p : Program α) (w : World) :
    (p.run handler w).2.now = w.now ∧ (p.run handler w).2.redis = w.redis := by
  induction p generalizing w with
  | done a => exact ⟨rfl, rfl⟩
  | emit signal next ih =>
    obtain ⟨hnow, hredis⟩ := ih (w.receive signal)
    cases signal <;> exact ⟨hnow, hredis⟩
  | await c next ih =>
    obtain ⟨hnow, hredis, -⟩ := answer_leaves c w
    obtain ⟨hnow', hredis'⟩ := ih (answer c w).1 (answer c w).2
    exact ⟨hnow'.trans hnow, hredis'.trans hredis⟩

variable {cache : CacheKind} {w : World}

theorem CacheWorks.receive (h : w.CacheWorks cache) (signal : Signal) :
    (w.receive signal).CacheWorks cache := by
  cases signal <;> exact ⟨h.link, h.faults⟩

theorem CacheWorks.answer (h : w.CacheWorks cache) (c : Call) :
    (World.answer c w).2.CacheWorks cache := by
  obtain ⟨-, hredis, hfaults⟩ := answer_leaves c w
  refine ⟨fun hcache => hredis.trans (h.link hcache), fun fault hfault => ?_⟩
  rcases hfaults with heq | heq
  · exact h.faults fault (heq ▸ hfault)
  · exact h.faults fault (List.mem_of_mem_tail (heq ▸ hfault))

/-- **A cache that works goes on working**, whatever program runs. -/
theorem CacheWorks.run {α : Type} (h : w.CacheWorks cache) (p : Program α) :
    (p.run handler w).2.CacheWorks cache := by
  induction p generalizing w with
  | done a => exact h
  | emit signal next ih => exact ih (h.receive signal)
  | await c next ih => exact ih _ (h.answer c)

/-! ## What it answers -/

theorem CacheWorks.join_head (h : w.CacheWorks cache) : w.cacheFaults.head?.join = none := by
  cases hfaults : w.cacheFaults with
  | nil => rfl
  | cons fault faults =>
    have hnone : fault = none := h.faults fault (hfaults ▸ List.mem_cons_self)
    rw [hnone]
    rfl

theorem CacheWorks.answerCache (h : w.CacheWorks .memory) (op : Cache.Operation) :
    (w.answerCache op).1 = (op.apply w.now w.entries).1 ∧
      (w.answerCache op).2.entries = (op.apply w.now w.entries).2 := by
  have hjoin : (w.note (.cache op)).cacheFaults.head?.join = none := h.join_head
  unfold World.answerCache takeCacheFault
  rw [hjoin]
  exact ⟨rfl, rfl⟩

theorem CacheWorks.answerRedis (h : w.CacheWorks .redis) (c : Redis.Command) :
    (w.answerRedis c).1 = (c.apply w.now w.entries).1.mapError .cache ∧
      (w.answerRedis c).2.entries = (c.apply w.now w.entries).2 := by
  have hjoin : (w.note (.redis c)).cacheFaults.head?.join = none := h.join_head
  unfold World.answerRedis takeCacheFault
  rw [h.link rfl]
  simp only
  rw [hjoin]
  exact ⟨rfl, rfl⟩

end World

namespace CacheKind

variable {cache : CacheKind} {w : World}

/-- A look-up answers what is there. -/
theorem client_get (hw : w.CacheWorks cache) (key : String) :
    ((cache.client (.get key)).run World.handler w).1 =
      (Cache.Operation.apply (.get key) w.now w.entries).1 := by
  cases cache with
  | memory => exact (hw.answerCache (.get key)).1
  | redis =>
    have hanswer : (w.answerRedis (.get key)).1 =
        .ok ((w.entries.live? w.now key).map Cache.Entry.value) := (hw.answerRedis (.get key)).1
    have hrun : (redis.client (.get key)).run World.handler w =
        (Cache.Client.redisGet key).run World.handler w := rfl
    rw [hrun, Cache.Client.redisGet, Program.run_bind, Program.run_ask, World.handler_redis,
      hanswer, Cache.Operation.apply]
    cases w.entries.live? w.now key <;> rfl

/-- What is set is there, for a while. -/
theorem client_set (hw : w.CacheWorks cache) (key value : String) {lifetime : Duration}
    (haccepts : cache.Accepts lifetime) :
    ∃ expiry, w.now < expiry ∧
      ((cache.client (.set key value lifetime)).run World.handler w).2.entries =
        w.entries.put key { value := Utf8.encode value, expiry := some expiry } := by
  cases cache with
  | memory =>
    have hpositive : 0 < lifetime.milliseconds := haccepts
    exact ⟨_, by omega, (hw.answerCache (.set key value lifetime)).2⟩
  | redis =>
    have haccepted : Redis.Command.acceptsLifetime lifetime.seconds = true := haccepts
    have hpositive : 0 < lifetime.seconds := by
      simp only [Redis.Command.acceptsLifetime, Bool.and_eq_true, decide_eq_true_eq] at haccepted
      exact haccepted.1
    obtain ⟨hanswer, hes⟩ := hw.answerRedis (.setEx key value lifetime.seconds)
    simp only [Redis.Command.apply, haccepted, if_true] at hanswer hes
    refine ⟨w.now + 1000 * lifetime.seconds, by omega, ?_⟩
    have hrun : (redis.client (.set key value lifetime)).run World.handler w =
        (Cache.Client.redisSet key value lifetime).run World.handler w := rfl
    rw [hrun, Cache.Client.redisSet, Program.run_bind, Program.run_ask, World.handler_redis,
      hanswer]
    exact hes

/-- The server takes a value if it takes its lifetime, and otherwise nothing changes. -/
theorem redis_set (hw : w.CacheWorks .redis) (key value : String) (lifetime : Duration) :
    (((redis.client (.set key value lifetime)).run World.handler w).1 = .ok () ↔
        redis.Accepts lifetime) ∧
      (¬ redis.Accepts lifetime →
        ((redis.client (.set key value lifetime)).run World.handler w).2.entries = w.entries) := by
  obtain ⟨hanswer, hes⟩ := hw.answerRedis (.setEx key value lifetime.seconds)
  have hrun : (redis.client (.set key value lifetime)).run World.handler w =
      (Cache.Client.redisSet key value lifetime).run World.handler w := rfl
  rw [hrun, Cache.Client.redisSet, Program.run_bind, Program.run_ask, World.handler_redis]
  by_cases haccepts : redis.Accepts lifetime
  · have haccepted : Redis.Command.acceptsLifetime lifetime.seconds = true := haccepts
    simp only [Redis.Command.apply, haccepted, if_true] at hanswer
    rw [hanswer]
    exact ⟨iff_of_true rfl haccepts, fun hrefused => (hrefused haccepts).elim⟩
  · have hrefused : ¬ Redis.Command.acceptsLifetime lifetime.seconds = true := haccepts
    simp only [Redis.Command.apply, if_neg hrefused] at hanswer hes
    rw [hanswer]
    exact ⟨iff_of_false (fun h => by cases h) haccepts, fun _ => hes⟩

/-- A counter that can be incremented is. -/
theorem client_increment (hw : w.CacheWorks cache) {key : String} {n : Int} {es : Cache.Entries}
    (hinc : w.entries.increment w.now key = (.ok n, es)) :
    ((cache.client (.increment key)).run World.handler w).2.entries = es := by
  cases cache with
  | memory =>
    have hes := (hw.answerCache (.increment key)).2
    simp only [Cache.Operation.apply, hinc] at hes
    exact hes
  | redis =>
    have hes := (hw.answerRedis (.incrBy key)).2
    simp only [Redis.Command.apply, hinc] at hes
    exact hes

end CacheKind

end VideoComments

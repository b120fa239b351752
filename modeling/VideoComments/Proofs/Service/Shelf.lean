import VideoComments.Proofs.Cache.Shelf
import VideoComments.Proofs.Repository.Faithful
import VideoComments.Proofs.Service.Calls

/-!
# The service over a server and over a shelf

A shelf can take the place of the server (`World.shelved`). A world mirrors a world with a shelf if
they have the same store and the server holds the shelf (`World.Mirrors`). Then what leaves the
cache alone is answered alike, and so is what the clients ask (`mirrored_ask`, `mirrored_client`).
Built from these, repositories with a cache agree (`Repository.mirrored_cached`), and so do the
calls of the service (`Service.mirrored_call`). Programs that agree go on agreeing, so that nobody
who asks one thing after another can tell the server from the shelf (`server_is_shelf`).
-/

namespace VideoComments

open Program

/-- The call is for neither the cache nor the server. -/
def Call.SparesCache : Call → Prop
  | .cache _ | .redis _ => False
  | _ => True

/-! ## A shelf in place of the cache -/

namespace World

/-- The world, with a shelf that answers instead of its cache. -/
def shelved : Handler (World × Cache.Shelf) where
  answer
    | .cache op, (w, s) =>
      let (answer, s) := s.apply w.now op
      (answer, (w, s))
    | c, (w, s) =>
      let (answer, w) := World.answer c w
      (answer, (w, s))
  receive signal ws := (ws.1.receive signal, ws.2)

/-- Time passes. -/
def passShelved (ws : World × Cache.Shelf) (milliseconds : Nat) : World × Cache.Shelf :=
  (ws.1.advance milliseconds, ws.2)

/-- The same store, and a server that can be reached and holds the shelf. -/
structure Mirrors (w : World) (ws : World × Cache.Shelf) : Prop where
  store : w.SameStore ws.1
  works : w.CacheWorks .redis
  holds : w.entries.Holds ws.2

variable {w w' : World}

theorem SameStore.symm (h : w.SameStore w') : w'.SameStore w :=
  ⟨⟨h.now.symm, h.table.symm, h.created.symm, h.database.symm⟩, h.storeFaults.symm⟩

theorem mirrors_receive (signal : Signal) (w : World) (ws : World × Cache.Shelf)
    (h : w.Mirrors ws) : (handler.receive signal w).Mirrors (shelved.receive signal ws) where
  store := ((sameStore_receive signal w).symm.trans h.store).trans (sameStore_receive signal ws.1)
  works := h.works.receive signal
  holds := by
    rw [handler_receive, entries_receive]
    exact h.holds

theorem mirrors_pass (wait : Nat) (w : World) (ws : World × Cache.Shelf) (h : w.Mirrors ws) :
    (w.advance wait).Mirrors (passShelved ws wait) where
  store := ⟨⟨congrArg (· + wait) h.store.now, h.store.table, h.store.created, h.store.database⟩,
    h.store.storeFaults⟩
  works := ⟨h.works.link, h.works.faults⟩
  holds := h.holds

/-- Worlds with the same store answer alike what leaves the cache alone. -/
theorem answer_sameStore (h : w.SameStore w') {c : Call} (hc : c.SparesCache) :
    (answer c w).1 = (answer c w').1 ∧ (answer c w).2.SameStore (answer c w').2 ∧
      (answer c w).2.entries = w.entries := by
  obtain ⟨_, _, _, _, _, _, _, _, _, _⟩ := w
  obtain ⟨_, _, _, _, storeFaults, _, database, _, _, _⟩ := w'
  obtain ⟨⟨hnow, htable, hcreated, hdatabase⟩, hfaults⟩ := h
  dsimp only at hnow htable hcreated hdatabase hfaults
  subst hnow htable hcreated hdatabase hfaults
  cases c with
  | clock => exact ⟨rfl, ⟨⟨rfl, rfl, rfl, rfl⟩, rfl⟩, rfl⟩
  | freshId => exact ⟨rfl, ⟨⟨rfl, rfl, rfl, rfl⟩, rfl⟩, rfl⟩
  | store op =>
    rcases storeFaults with _ | ⟨_ | failure, faults⟩ <;> cases op <;>
      exact ⟨rfl, ⟨⟨rfl, rfl, rfl, rfl⟩, rfl⟩, rfl⟩
  | statement s =>
    cases database with
    | down cause => exact ⟨rfl, ⟨⟨rfl, rfl, rfl, rfl⟩, rfl⟩, rfl⟩
    | up =>
      rcases storeFaults with _ | ⟨_ | failure, faults⟩ <;>
        exact ⟨rfl, ⟨⟨rfl, rfl, rfl, rfl⟩, rfl⟩, rfl⟩
  | cache | redis => exact hc.elim

end World

/-! ## Calls -/

/-- Programs agree over a server and over a shelf that it holds. -/
abbrev Mirrored {α : Type} (p p' : Program α) : Prop :=
  Agree World.handler World.shelved World.Mirrors p p'

theorem mirrored_ask (c : Call) (hc : c.SparesCache) : Mirrored (ask c) (ask c) := by
  intro w ws h
  obtain ⟨hanswer, hstore, hentries⟩ := World.answer_sameStore h.store hc
  have hshelved : (ask c).run World.shelved ws =
      ((World.answer c ws.1).1, ((World.answer c ws.1).2, ws.2)) := by
    cases c with
    | clock | freshId | store | statement => rfl
    | cache | redis => exact hc.elim
  rw [hshelved]
  exact ⟨hanswer, hstore, h.works.answer c, hentries ▸ h.holds⟩

theorem mirrored_log (level : Level) (message : String) :
    Mirrored (log level message) (log level message) :=
  agree_log World.mirrors_receive level message

theorem run_direct_shelved (op : Cache.Operation) (ws : World × Cache.Shelf) :
    (Cache.Client.direct op).run World.shelved ws =
      ((ws.2.apply ws.1.now op).1, (ws.1, (ws.2.apply ws.1.now op).2)) := rfl

/-- **The client of a server and the shelf answer alike.** -/
theorem mirrored_client {op : Cache.Operation} (hop : op.Accepted) :
    Mirrored (Cache.Client.redis op) (Cache.Client.direct op) := by
  intro w ws h
  obtain ⟨hanswer, hholds⟩ := Cache.Client.redis_holds h.works h.holds hop
  have hsame := (CacheKind.client_does .redis op w).2
  rw [run_direct_shelved, h.store.now]
  exact ⟨hanswer, hsame.symm.trans h.store, h.works.run _, hholds⟩

/-! ## Repositories -/

namespace Repository

theorem mirrored_selectPage (video : String) (limit offset : Int) :
    Mirrored (selectPage video limit offset) (selectPage video limit offset) := by
  refine (mirrored_log _ _).bind fun _ => (mirrored_ask (.statement _) trivial).bind fun reply => ?_
  cases reply <;> exact agree_pure _

theorem mirrored_insertComment (comment : Comment) :
    Mirrored (insertComment comment) (insertComment comment) := by
  refine (mirrored_ask .freshId trivial).bind fun id => ?_
  refine (mirrored_ask (.statement _) trivial).bind fun reply => ?_
  cases reply with
  | error failure => exact agree_pure _
  | ok _ => exact (mirrored_log _ _).bind fun _ => agree_pure _

theorem mirrored_updateComment (comment : Comment) :
    Mirrored (updateComment comment) (updateComment comment) := by
  refine (mirrored_ask (.statement _) trivial).bind fun reply => ?_
  cases reply with
  | error failure => exact agree_pure _
  | ok affected =>
    simp only
    split <;> exact (mirrored_log _ _).bind fun _ => agree_pure _

theorem mirrored_deleteComment (id : Uuid) : Mirrored (deleteComment id) (deleteComment id) := by
  refine (mirrored_ask (.statement _) trivial).bind fun reply => ?_
  cases reply with
  | error failure => exact agree_pure _
  | ok affected =>
    simp only
    split <;> exact (mirrored_log _ _).bind fun _ => agree_pure _

theorem mirrored_deleteVideo (video : String) :
    Mirrored (deleteVideo video) (deleteVideo video) := by
  refine (mirrored_ask (.statement _) trivial).bind fun reply => ?_
  cases reply with
  | error failure => exact agree_pure _
  | ok affected => exact (mirrored_log _ _).bind fun _ => agree_pure _

/-- Stores do not know of the cache. -/
theorem mirrored_store (store : StoreKind) (op : Operation) :
    Mirrored (store.repository op) (store.repository op) := by
  cases store with
  | memory => exact mirrored_ask (.store op) trivial
  | database =>
    cases op with
    | list video limit offset => exact mirrored_selectPage video limit offset
    | create comment => exact mirrored_insertComment comment
    | update comment => exact mirrored_updateComment comment
    | delete id => exact mirrored_deleteComment id
    | deleteByVideo video => exact mirrored_deleteVideo video

/-- What a repository with a cache asks for: operations on the store, and operations on the cache
that set nothing for another lifetime. -/
def Asks (lifetime : Duration) : Call → Prop
  | .store _ => True
  | .cache (.set _ _ lifetime') => lifetime' = lifetime
  | .cache _ => True
  | _ => False

theorem Transcript.asks {lifetime : Duration} {op : Operation} {xs : List Exchange}
    {r : Except Failure op.Answer} (h : Transcript lifetime op xs r) :
    ∀ x ∈ xs, Asks lifetime x.1 := by
  cases op with
  | list video limit offset =>
    cases h with
    | through hxs answer => cases hxs <;> simp [Asks]
    | hit hxs htext =>
      cases hxs
      simp [Asks]
    | refused hxs hys failure =>
      cases hxs
      cases hys <;> simp [Asks]
    | kept hxs hys page c =>
      cases hxs
      cases hys <;> simp [Asks]
  | create | update | delete | deleteByVideo =>
    obtain ⟨counter, -, hxs⟩ := h
    cases hxs <;> simp [Asks]

/-- **Over a server and over a shelf a repository with a cache answers alike.** -/
theorem mirrored_cached (store : StoreKind) {seconds : Nat}
    (haccepts : Redis.Command.acceptsLifetime seconds = true) (op : Operation) :
    Mirrored (cached store.repository Cache.Client.redis (.ofSeconds seconds) op)
      (cached store.repository Cache.Client.direct (.ofSeconds seconds) op) := by
  intro w ws h
  rw [(cached_faithful World.handler store.repository Cache.Client.redis _ op w).1,
    (cached_faithful World.shelved store.repository Cache.Client.direct _ op ws).1]
  have hreceive : ∀ signal w ws, w.Mirrors ws →
      ((World.handler.through store.repository Cache.Client.redis).receive signal w).Mirrors
        ((World.shelved.through store.repository Cache.Client.direct).receive signal ws) :=
    World.mirrors_receive
  refine (run_agree hreceive (fun c hc => ?_)
    (Transcript.asks ((cached_transcript (.ofSeconds seconds) op).run _ w)) h).2
  cases c with
  | store op => exact mirrored_store store op
  | cache op =>
    have hop : op.Accepted := by
      cases op with
      | set key value lifetime => exact ⟨seconds, haccepts, hc⟩
      | get | delete | increment => trivial
    exact mirrored_client hop
  | clock | freshId | statement | redis => exact hc.elim

end Repository

/-! ## The service -/

namespace Service

open Rpc

variable {repository repository' : Repository}
  (h : ∀ op, Mirrored (repository op) (repository' op))

include h

theorem mirrored_work (r : Request) : Mirrored (work repository r) (work repository' r) := by
  cases r with
  | healthz m => exact agree_pure _
  | list m =>
    rw [work_list, work_list]
    exact (h _).bind fun _ => agree_pure _
  | create m =>
    rw [work_create, work_create]
    exact (h _).bind fun _ => agree_pure _
  | update m =>
    cases hid : Uuid.ofText m.id with
    | error fault =>
      rw [work_update_of_error _ hid, work_update_of_error _ hid]
      exact agree_pure _
    | ok id =>
      rw [work_update_of_ok _ hid, work_update_of_ok _ hid]
      exact (h _).bind fun _ => agree_pure _
  | delete m =>
    cases hid : Uuid.ofText m.id with
    | error fault =>
      rw [work_delete_of_error _ hid, work_delete_of_error _ hid]
      exact agree_pure _
    | ok id =>
      rw [work_delete_of_ok _ hid, work_delete_of_ok _ hid]
      exact (h _).bind fun _ => agree_pure _
  | deleteByVideo m =>
    rw [work_deleteByVideo, work_deleteByVideo]
    exact (h _).bind fun _ => agree_pure _

/-- **Over repositories that answer alike the service answers alike.** -/
theorem mirrored_call (r : Request) : Mirrored (call repository r) (call repository' r) := by
  refine (mirrored_ask .clock trivial).bind fun start => (mirrored_log _ _).bind fun _ => ?_
  refine (mirrored_work h r).bind fun completion => ?_
  refine (mirrored_ask .clock trivial).bind fun stop => ?_
  exact agree_emit World.mirrors_receive _ (agree_emit World.mirrors_receive _
    (agree_emit World.mirrors_receive _ (agree_pure _)))

end Service

/-! ## One operation after another -/

namespace Cache

/-- The operations on one key, with the time that passes before each of them, after `carry`. -/
def only (key : String) : Nat → List (Nat × Operation) → List (Nat × Operation)
  | _, [] => []
  | carry, (wait, op) :: rest =>
    if op.key = key then (carry + wait, op) :: only key 0 rest else only key (carry + wait) rest

theorem accepted_of_mem_only {key : String} {carry : Nat} {errands : List (Nat × Operation)}
    (h : ∀ e ∈ errands, e.2.Accepted) : ∀ e ∈ only key carry errands, e.2.Accepted := by
  induction errands generalizing carry with
  | nil => exact h
  | cons e rest ih =>
    obtain ⟨he, hrest⟩ := List.forall_mem_cons.1 h
    rw [only]
    split
    · exact List.forall_mem_cons.2 ⟨he, ih hrest⟩
    · exact ih hrest

/-- On a shelf no operation changes what another key answers. -/
theorem filter_serve_shelved {key : String} {errands : List (Nat × Operation)} {w w' : World}
    {s s' : Shelf} {carry : Nat} (hnow : w.now = w'.now + carry) (hcell : s key = s' key) :
    (serve World.shelved World.passShelved Client.direct errands (w, s)).1.filter
        (fun r => r.1.key = key) =
      (serve World.shelved World.passShelved Client.direct (only key carry errands)
        (w', s')).1 := by
  induction errands generalizing w w' s s' carry with
  | nil => rfl
  | cons e rest ih =>
    obtain ⟨wait, op⟩ := e
    have htime : (w.advance wait).now = (w'.advance (carry + wait)).now := by
      simp only [World.advance]
      omega
    rw [only, serve]
    simp only [run_direct_shelved, World.passShelved]
    by_cases hkey : op.key = key
    · subst hkey
      obtain ⟨hanswer, hleft⟩ := Shelf.apply_congr hcell (w.advance wait).now
      rw [if_pos rfl, List.filter_cons_of_pos (by simp), serve]
      simp only [run_direct_shelved, World.passShelved, ← htime]
      rw [← hanswer, ih (htime.trans (Nat.add_zero _).symm) hleft]
    · rw [if_neg hkey, List.filter_cons_of_neg (by simpa using hkey)]
      refine ih ?_ ((Shelf.apply_of_ne (Ne.symm hkey)).trans hcell)
      simp only [World.advance]
      omega

end Cache

/-- **A server that can be reached is a map from keys to texts that may expire.** Whatever is asked
of it, with time passing in between, it answers as the shelf that it holds, and goes on holding it;
and what is asked of one key is answered as if nothing had been asked of the others. So the service
answers over the server as over the shelf, to any requests. -/
theorem server_is_shelf {w w' : World} {s : Cache.Shelf} (hstore : w.SameStore w')
    (hworks : w.CacheWorks .redis) (hholds : w.entries.Holds s) :
    (∀ errands : List (Nat × Cache.Operation), (∀ e ∈ errands, e.2.Accepted) →
      let server := serve World.handler World.advance Cache.Client.redis errands w
      let shelf := serve World.shelved World.passShelved Cache.Client.direct errands (w', s)
      server.1 = shelf.1 ∧ server.2.entries.Holds shelf.2.2 ∧
        ∀ key, server.1.filter (fun r => r.1.key = key) =
          (serve World.handler World.advance Cache.Client.redis (Cache.only key 0 errands) w).1) ∧
      ∀ (store : StoreKind) (seconds : Nat), Redis.Command.acceptsLifetime seconds = true →
        ∀ visits : List (Nat × Rpc.Request),
          (serve World.handler World.advance (Service.call
            (.cached store.repository Cache.Client.redis (.ofSeconds seconds))) visits w).1 =
          (serve World.shelved World.passShelved (Service.call
            (.cached store.repository Cache.Client.direct (.ofSeconds seconds))) visits (w', s)).1 := by
  have hmirrors : w.Mirrors (w', s) := ⟨hstore, hworks, hholds⟩
  refine ⟨fun errands haccepted => ?_, fun store seconds haccepts visits => ?_⟩
  · have agrees : ∀ errands : List (Nat × Cache.Operation), (∀ e ∈ errands, e.2.Accepted) →
        (serve World.handler World.advance Cache.Client.redis errands w).1 =
            (serve World.shelved World.passShelved Cache.Client.direct errands (w', s)).1 ∧
          (serve World.handler World.advance Cache.Client.redis errands w).2.Mirrors
            (serve World.shelved World.passShelved Cache.Client.direct errands (w', s)).2 :=
      fun errands haccepted => serve_agree World.mirrors_pass
        (fun e he => mirrored_client (haccepted e he)) hmirrors
    obtain ⟨hanswers, hends⟩ := agrees errands haccepted
    refine ⟨hanswers, hends.holds, fun key => ?_⟩
    rw [hanswers, Cache.filter_serve_shelved (Nat.add_zero w'.now).symm rfl]
    exact (agrees _ (Cache.accepted_of_mem_only haccepted)).1.symm
  · have hrepository := Repository.mirrored_cached store haccepts
    exact (serve_agree World.mirrors_pass
      (fun v _ => Service.mirrored_call hrepository v.2) hmirrors).1

instance Cache.Operation.decidableEqAnswer : (op : Cache.Operation) → DecidableEq op.Answer
  | .get _ => inferInstanceAs (DecidableEq (Option String))
  | .set .. | .delete _ => inferInstanceAs (DecidableEq Unit)
  | .increment _ => inferInstanceAs (DecidableEq Int)

/-- A number that is set for a minute, goes up after half of it and is gone after the other half. -/
def halves : List (Nat × Cache.Operation) :=
  [(0, .set "n" "41" (.ofSeconds 60)), (30000, .increment "n"), (0, .get "m"), (30000, .get "n"),
    (0, .increment "n")]

theorem accepted_halves : ∀ e ∈ halves, e.2.Accepted := by
  simp only [halves, List.forall_mem_cons]
  exact ⟨⟨60, by decide, rfl⟩, trivial, trivial, trivial, trivial, List.forall_mem_nil _⟩

/-- A comment is written and listed, and listed again a minute later. -/
def visits : List (Nat × Rpc.Request) :=
  [(0, .create { video := "v", content := "first" }),
    (0, .list { video := "v", limit := 10, offset := 0 }),
    (60000, .list { video := "v", limit := 10, offset := 0 })]

theorem server_is_shelf_halves :
    World.SameStore {} {} ∧ World.CacheWorks .redis {} ∧ Cache.Entries.Holds [] (fun _ => none) ∧
      (∀ e ∈ halves, e.2.Accepted) ∧ Redis.Command.acceptsLifetime 60 = true ∧
      (serve World.handler World.advance Cache.Client.redis halves {}).1 =
        [⟨.set "n" "41" (.ofSeconds 60), .ok ()⟩, ⟨.increment "n", .ok 42⟩, ⟨.get "m", .ok none⟩,
          ⟨.get "n", .ok none⟩, ⟨.increment "n", .ok 1⟩] ∧
      (serve World.handler World.advance (Service.call
          (.cached .database Cache.Client.redis (.ofSeconds 60))) visits {}).1 =
        (serve World.shelved World.passShelved (Service.call
          (.cached .database Cache.Client.direct (.ofSeconds 60))) visits ({}, fun _ => none)).1 := by
  have hworks : World.CacheWorks .redis {} := ⟨fun _ => rfl, List.forall_mem_nil _⟩
  have h := server_is_shelf (.refl {}) hworks Cache.Entries.holds_nil
  have haccepts : Redis.Command.acceptsLifetime 60 = true := by decide
  refine ⟨.refl {}, hworks, Cache.Entries.holds_nil, accepted_halves, haccepts, ?_,
    h.2 .database 60 haccepts visits⟩
  rw [(h.1 halves accepted_halves).1]
  decide +kernel

end VideoComments

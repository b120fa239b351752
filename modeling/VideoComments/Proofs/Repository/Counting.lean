import VideoComments.Proofs.Interleaving
import VideoComments.Proofs.Repository.Cached
import VideoComments.Proofs.Repository.Transcript

/-!
# Counters count writes

However calls interleave, a counter moves only when it is incremented, and it is incremented only by
a call whose write the store has carried out and that the counter counts (`Tally.counter_step`).
Pages are set and deleted under keys of their own, whatever the names of videos hold, so that no
listing ever resets a counter.

A call that has ended has incremented one counter once, if it is a write that has succeeded and no
increment fails, and otherwise none (`Transcript.countP_isIncrement`). Taken together over all
calls, a counter reads as the number of the writes that it counts and that have succeeded
(`counters_count_writes`).
-/

namespace VideoComments

/-! ## What a counter counts -/

namespace Operation

/-- Does the operation update or delete one comment? -/
def changesOne : Operation → Bool
  | update _ | delete _ => true
  | _ => false

/-- Does the operation create a comment on a video, or delete all comments on it? -/
def changesVideo (video : String) : Operation → Bool
  | create comment => comment.video = video
  | deleteByVideo other => other = video
  | _ => false

end Operation

/-- Was a counter incremented? -/
def Exchange.isIncrement (key : String) : Exchange → Bool
  | ⟨.cache (.increment other), .ok _⟩ => other = key
  | _ => false

namespace Repository

theorem counterOf_eq_generation_iff {op : Operation} :
    counterOf op = some Cache.Key.generation ↔ op.changesOne = true := by
  cases op <;> simp [counterOf, Operation.changesOne, Cache.Key.version_ne_generation]

theorem counterOf_eq_version_iff {op : Operation} {video : String} :
    counterOf op = some (Cache.Key.version video) ↔ op.changesVideo video = true := by
  have hne := (Cache.Key.version_ne_generation video).symm
  have hinj : ∀ other, Cache.Key.version other = Cache.Key.version video ↔ other = video :=
    fun other => ⟨Cache.Key.version_injective, congrArg _⟩
  cases op <;> simp [counterOf, Operation.changesVideo, hne, hinj]

/-- Every call keeps to its contract and takes one of its ways. -/
theorem cached_obeys_transcript (lifetime : Duration) (op : Operation) :
    Program.Obeys (Allowed op) (Transcript lifetime op) []
      (cached .direct .direct lifetime op) :=
  ((cached_obeys op lifetime).and (cached_transcript lifetime op)).mono fun _ _ h => h.2

/-- No listing increments a counter. -/
theorem ListTranscript.countP_isIncrement {lifetime : Duration} {video : String}
    {limit offset : Int} {xs : List Exchange} {r : Except Failure (List Comment)}
    (h : ListTranscript lifetime video limit offset xs r) (key : String) :
    xs.countP (Exchange.isIncrement key) = 0 := by
  have hcounters : ∀ {xs p?}, CountersTranscript video limit offset xs p? →
      xs.countP (Exchange.isIncrement key) = 0 := by
    intro xs p? h
    cases h <;> rfl
  have hmiss : ∀ {ys page}, MissTranscript page ys →
      ys.countP (Exchange.isIncrement key) = 0 := by
    intro ys _ h
    cases h <;> rfl
  cases h with
  | through hxs =>
    rw [List.countP_append, hcounters hxs]
    rfl
  | hit hxs =>
    rw [List.countP_append, hcounters hxs]
    rfl
  | refused hxs hys =>
    rw [List.countP_append, List.countP_append, hcounters hxs, hmiss hys]
    rfl
  | kept hxs hys =>
    rw [List.countP_append, List.countP_append, hcounters hxs, hmiss hys]
    rfl

theorem WriteTranscript.countP_isIncrement {op : Operation} {counter : String}
    {xs : List Exchange} {r : Except Failure op.Answer} (h : WriteTranscript op counter xs r)
    (hincrement : ∀ key failure, (⟨.cache (.increment key), .error failure⟩ : Exchange) ∉ xs)
    (key : String) :
    xs.countP (Exchange.isIncrement key) = if counter = key ∧ r.isOk then 1 else 0 := by
  cases h with
  | refused failure => simp [Exchange.isIncrement, Except.isOk, Except.toBool]
  | carriedOut answer n =>
    cases n with
    | error failure => exact absurd (by simp) (hincrement counter failure)
    | ok n =>
      by_cases hkey : counter = key <;>
        simp [Exchange.isIncrement, Except.isOk, Except.toBool, hkey]

/-- **A call that has ended has incremented the counter that counts it, if it is a write that has
succeeded.** -/
theorem Transcript.countP_isIncrement {lifetime : Duration} {op : Operation} {xs : List Exchange}
    {r : Except Failure op.Answer} (h : Transcript lifetime op xs r)
    (hincrement : ∀ key failure, (⟨.cache (.increment key), .error failure⟩ : Exchange) ∉ xs)
    (key : String) :
    xs.countP (Exchange.isIncrement key) = if counterOf op = some key ∧ r.isOk then 1 else 0 := by
  cases op with
  | list video limit offset =>
    rw [ListTranscript.countP_isIncrement h key, if_neg (by simp [counterOf])]
  | create | update | delete | deleteByVideo =>
    obtain ⟨counter, hcounter, hwrite⟩ := h
    rw [hwrite.countP_isIncrement hincrement key, hcounter]
    simp only [Option.some.injEq]

end Repository

namespace Interleaving

open Cache (Entries)
open Repository

variable {lifetime : Duration} {s s' : State} {es fs : List Event} {e : Event}

/-! ## Calls that have ended -/

namespace Running

/-- Has the call ended? -/
def hasEnded (r : Running) : Bool :=
  match r.rest with
  | .done _ => true
  | _ => false

/-- Has the call ended in success? -/
def hasSucceeded (r : Running) : Bool :=
  match r.rest with
  | .done answer => answer.isOk
  | _ => false

end Running

/-- The number of calls for operations of a kind that have begun in the events and have succeeded by
the state. -/
def succeeded (kind : Operation → Bool) (es : List Event) (s : State) : Nat :=
  (begun es).countP fun c => kind c.2 && (s.calls c.1).any Running.hasSucceeded

/-! ## What a run preserves -/

/-- Every counter reads as the number of its increments so far, and every call keeps to its contract
and to its ways. -/
structure Tally (lifetime : Duration) (es : List Event) (s : State) : Prop
    extends Tracked Allowed (Transcript lifetime) es s, Registered es s where
  countersLast : s.entries.CountersLast
  reading : ∀ key, Cache.Key.IsCounter key →
    s.entries.reading s.now key = some ((exchanges es).countP (Exchange.isIncrement key))

/-- The event is the increment of a counter by a call that the counter counts and whose write the
store has carried out. -/
def Moves (es : List Event) (key : String) (e : Event) : Prop :=
  ∃ (i : Nat) (op : Operation) (n : Int) (answer : op.Answer),
    e = .exchange i ⟨.cache (.increment key), .ok n⟩ ∧ .begin i op ∈ es ∧
    counterOf op = some key ∧ .exchange i ⟨.store op, .ok answer⟩ ∈ es

namespace Tally

theorem nil (hcalls : ∀ i, s.calls i = none) (habsent : s.entries.HasNoCounters) :
    Tally lifetime [] s where
  toTracked := tracked_nil hcalls
  toRegistered := registered_nil hcalls
  countersLast := habsent.countersLast
  reading _ hkey := habsent.reading hkey s.now

/-- **A counter is left as it is, or a call increments it whose write the counter counts.** -/
theorem counter_step (h : Tally lifetime es s) (hs : Step (cached .direct .direct lifetime) s e s')
    {key : String} (hkey : Cache.Key.IsCounter key) :
    (s'.entries.lookup key = s.entries.lookup key ∧
        (exchanges [e]).countP (Exchange.isIncrement key) = 0) ∨
      Moves es key e ∧ (exchanges [e]).countP (Exchange.isIncrement key) = 1 ∧
        ∃ n, s.entries.increment s.now key = (.ok n, s'.entries) := by
  cases hs with
  | begin => exact .inl ⟨rfl, rfl⟩
  | tick => exact .inl ⟨rfl, rfl⟩
  | expire p =>
    refine .inl ⟨?_, rfl⟩
    rw [Entries.lookup_erase, if_neg (p.key_ne_counter hkey).symm]
  | @exchange i op c next answer entries hi hanswer =>
    have hallowed : Allowed op (own i es) c := (h.obeys i op _ hi).1
    have hbegun : .begin i op ∈ es := (h.begun_iff i op).2 (by rw [hi]; rfl)
    cases hanswer with
    | failed cop failure => cases cop <;> exact .inl ⟨rfl, rfl⟩
    | store => exact .inl ⟨rfl, rfl⟩
    | cache cop =>
      have hout := Cache.Operation.outcome_apply cop s.now s.entries
      simp only [State.set]
      generalize (cop.apply s.now s.entries).1 = answer at hout ⊢
      generalize (cop.apply s.now s.entries).2 = entries at hout ⊢
      cases hout with
      | failed failure => cases cop <;> exact .inl ⟨rfl, rfl⟩
      | absent => exact .inl ⟨rfl, rfl⟩
      | found => exact .inl ⟨rfl, rfl⟩
      | deleted =>
        obtain ⟨p, rfl⟩ := hallowed
        refine .inl ⟨?_, rfl⟩
        rw [Entries.lookup_erase, if_neg (p.key_ne_counter hkey).symm]
      | set =>
        obtain ⟨p, page, xs, ys, rfl, -⟩ := hallowed
        refine .inl ⟨?_, rfl⟩
        rw [Entries.lookup_put, if_neg (p.key_ne_counter hkey).symm]
      | @incremented counter n _ hinc =>
        obtain ⟨hcounter, answer, hanswer⟩ := hallowed
        by_cases heq : counter = key
        · subst heq
          refine .inr ⟨⟨i, op, n, answer, rfl, hbegun, hcounter, mem_own.1 hanswer⟩, ?_, n, hinc⟩
          simp [exchanges, Event.exchange?, Exchange.isIncrement]
        · refine .inl ⟨Entries.lookup_increment hinc (Ne.symm heq), ?_⟩
          simp [exchanges, Event.exchange?, Exchange.isIncrement, heq]

theorem countersLast_step (h : Tally lifetime es s)
    (hs : Step (cached .direct .direct lifetime) s e s') : s'.entries.CountersLast := by
  intro key hkey entry hentry
  rcases h.counter_step hs hkey with ⟨hlookup, -⟩ | ⟨-, -, n, hinc⟩
  · exact h.countersLast key hkey entry (hlookup ▸ hentry)
  · exact h.countersLast.increment hinc key hkey entry hentry

theorem reading_step (h : Tally lifetime es s)
    (hs : Step (cached .direct .direct lifetime) s e s') {key : String}
    (hkey : Cache.Key.IsCounter key) : s'.entries.reading s'.now key =
      some ((exchanges (es ++ [e])).countP (Exchange.isIncrement key)) := by
  have hread := h.reading key hkey
  rw [(h.countersLast_step hs).reading_eq hkey s.now s'.now, exchanges_append, List.countP_append]
  rcases h.counter_step hs hkey with ⟨hlookup, hcount⟩ | ⟨-, hcount, n, hinc⟩
  · rw [Entries.reading_congr hlookup, hread, hcount, Nat.add_zero]
  · obtain ⟨hbefore, -, -⟩ := Entries.increment_ok hinc
    have hn : n - 1 = _ := Option.some.inj (hbefore.symm.trans hread)
    rw [Entries.reading_increment hinc, hcount]
    congr 1
    omega

/-- A counter reads as it did, unless the event moves it. -/
theorem reading_eq_or_moves (h : Tally lifetime es s)
    (hs : Step (cached .direct .direct lifetime) s e s') {key : String}
    (hkey : Cache.Key.IsCounter key) :
    s'.entries.reading s'.now key = s.entries.reading s.now key ∨ Moves es key e := by
  rcases h.counter_step hs hkey with ⟨hlookup, -⟩ | ⟨hmoves, -⟩
  · refine .inl ?_
    rw [(h.countersLast_step hs).reading_eq hkey s.now s'.now, Entries.reading_congr hlookup]
  · exact .inr hmoves

/-- What one event preserves. -/
theorem step (h : Tally lifetime es s) (hs : Step (cached .direct .direct lifetime) s e s') :
    Tally lifetime (es ++ [e]) s' where
  toTracked := h.toTracked.step (cached_obeys_transcript lifetime) hs
  toRegistered := h.toRegistered.step hs
  countersLast := h.countersLast_step hs
  reading _ hkey := h.reading_step hs hkey

/-- What a run preserves. -/
theorem run (h : Tally lifetime es s) (hr : Run (cached .direct .direct lifetime) s fs s') :
    Tally lifetime (es ++ fs) s' := by
  induction hr generalizing es with
  | nil => rwa [List.append_nil]
  | @cons s t u e fs hs _ ih =>
    rw [← List.singleton_append, ← List.append_assoc]
    exact ih (h.step hs)

/-! ## When all calls have ended -/

/-- A call that has ended has incremented the counter that counts it, if it has succeeded. -/
theorem countP_own (h : Tally lifetime es s)
    (hincrement : ∀ i key failure, .exchange i ⟨.cache (.increment key), .error failure⟩ ∉ es)
    (hended : ∀ i r, s.calls i = some r → r.hasEnded = true) (key : String) {i : Nat}
    {op : Operation} (hbegun : (i, op) ∈ begun es) :
    (own i es).countP (Exchange.isIncrement key) =
      if counterOf op = some key ∧ (s.calls i).any Running.hasSucceeded then 1 else 0 := by
  have hop := (h.begun_iff i op).1 (mem_begun.1 hbegun)
  obtain ⟨⟨op, rest⟩, hi, rfl⟩ := Option.map_eq_some_iff.1 hop
  have hend := hended i _ hi
  cases rest with
  | emit signal next => cases hend
  | await c next => cases hend
  | done r =>
    have htranscript : Transcript lifetime op (own i es) r := h.obeys i op _ hi
    rw [htranscript.countP_isIncrement (fun key failure hmem => ?_) key, hi]
    · rfl
    · exact hincrement i key failure (mem_own.1 hmem)

/-- Once all calls have ended, a counter has been incremented by those that it counts and that have
succeeded. -/
theorem countP_exchanges_eq (h : Tally lifetime es s)
    (hincrement : ∀ i key failure, .exchange i ⟨.cache (.increment key), .error failure⟩ ∉ es)
    (hended : ∀ i r, s.calls i = some r → r.hasEnded = true) {key : String}
    {kind : Operation → Bool} (hkind : ∀ op, counterOf op = some key ↔ kind op = true) :
    (exchanges es).countP (Exchange.isIncrement key) = succeeded kind es s := by
  have hmem : ∀ i x, .exchange i x ∈ es → i ∈ (begun es).map Prod.fst := by
    intro i x hx
    cases hi : s.calls i with
    | none =>
      have hnil := h.fresh i hi
      exact absurd (mem_own.2 hx) (hnil ▸ List.not_mem_nil)
    | some r =>
      have hbegin := (h.begun_iff i r.op).2 (by rw [hi]; rfl)
      exact List.mem_map.2 ⟨_, mem_begun.2 hbegin, rfl⟩
  rw [countP_exchanges _ h.nodup hmem, List.map_map, succeeded]
  have hall : ∀ c ∈ begun es, (own c.1 es).countP (Exchange.isIncrement key) =
      if kind c.2 && (s.calls c.1).any Running.hasSucceeded then 1 else 0 := by
    intro c hc
    rw [h.countP_own hincrement hended key hc]
    simp only [hkind, Bool.and_eq_true]
  generalize begun es = calls at hall
  induction calls with
  | nil => rfl
  | cons c calls ih =>
    rw [List.map_cons, List.sum_cons, List.countP_cons, Function.comp_apply,
      hall c List.mem_cons_self, ih fun d hd => hall d (List.mem_cons_of_mem c hd), Nat.add_comm]

end Tally

/-- **Counters count the writes that have succeeded.** Any number of calls to a repository with a
cache run interleaved, from a cache without counters. No event moves a counter but its increment by
a call that the counter counts and whose write the store has carried out. If no increment fails,
then, once all calls have ended, the counter of all videos reads as the number of updates and
deletions of one comment that have succeeded, and the counter of a video as the number of comments
created on it and of deletions of all its comments. -/
theorem counters_count_writes (lifetime : Duration) {s₀ s : State}
    (hcalls : ∀ i, s₀.calls i = none) (habsent : s₀.entries.HasNoCounters) {es : List Event}
    (hrun : Run (cached .direct .direct lifetime) s₀ es s) :
    (∀ e s', Step (cached .direct .direct lifetime) s e s' → ∀ key, Cache.Key.IsCounter key →
      s'.entries.reading s'.now key = s.entries.reading s.now key ∨ Moves es key e) ∧
    ((∀ i key failure, .exchange i ⟨.cache (.increment key), .error failure⟩ ∉ es) →
      (∀ i r, s.calls i = some r → r.hasEnded = true) →
      s.entries.reading s.now Cache.Key.generation =
          some (succeeded Operation.changesOne es s) ∧
        ∀ video, s.entries.reading s.now (Cache.Key.version video) =
          some (succeeded (Operation.changesVideo video) es s)) := by
  have h : Tally lifetime es s := by
    have h := (Tally.nil hcalls habsent).run hrun
    rwa [List.nil_append] at h
  refine ⟨fun e s' hs key hkey => h.reading_eq_or_moves hs hkey, fun hincrement hended => ?_⟩
  refine ⟨?_, fun video => ?_⟩
  · rw [h.reading _ Cache.Key.isCounter_generation,
      h.countP_exchanges_eq hincrement hended fun _ => counterOf_eq_generation_iff]
  · rw [h.reading _ (Cache.Key.isCounter_version video),
      h.countP_exchanges_eq hincrement hended fun _ => counterOf_eq_version_iff]

/-! ### Five calls -/

/-- A comment is created while its video is listed, another one is updated, one that does not exist
is to be deleted, and the comments of the video are deleted when a page of them is gone. -/
def fiveCalls : List Event :=
  [.begin 0 (.create { video := "v", content := "x" }),
    .begin 1 (.list "v" 0 0),
    .exchange 1 ⟨.cache (.get Cache.Key.generation), .ok none⟩,
    .exchange 0 ⟨.store (.create { video := "v", content := "x" }), .ok (.numbered 1)⟩,
    .begin 2 (.update { id := .numbered 1, content := "y" }),
    .exchange 0 ⟨.cache (.increment (Cache.Key.version "v")), .ok 1⟩,
    .exchange 2 ⟨.store (.update { id := .numbered 1, content := "y" }), .ok ()⟩,
    .exchange 1 ⟨.cache (.get (Cache.Key.version "v")), .ok (some "1")⟩,
    .exchange 2 ⟨.cache (.increment Cache.Key.generation), .ok 1⟩,
    .exchange 1 ⟨.cache (.get (Cache.Key.page "v" 0 1 0 0)), .ok none⟩,
    .exchange 1 ⟨.store (.list "v" 0 0), .ok []⟩,
    .exchange 1 ⟨.cache (.set (Cache.Key.page "v" 0 1 0 0) (Page.encode []) (.ofSeconds 60)),
      .ok ()⟩,
    .begin 3 (.delete (.numbered 7)),
    .exchange 3 ⟨.store (.delete (.numbered 7)), .error .commentNotFound⟩,
    .expire ⟨"v", 0, 1, 0, 0⟩,
    .begin 4 (.deleteByVideo "v"),
    .exchange 4 ⟨.store (.deleteByVideo "v"), .ok ()⟩,
    .exchange 4 ⟨.cache (.increment (Cache.Key.version "v")), .ok 2⟩]

theorem counters_count_writes_fiveCalls :
    (∀ i, ({} : State).calls i = none) ∧ ({} : State).entries.HasNoCounters ∧ ∃ s,
    Run (cached .direct .direct (.ofSeconds 60)) {} fiveCalls s ∧
    (∀ i key failure, .exchange i ⟨.cache (.increment key), .error failure⟩ ∉ fiveCalls) ∧
    (∀ i r, s.calls i = some r → r.hasEnded = true) ∧
    s.entries.reading s.now Cache.Key.generation = some 1 ∧
    s.entries.reading s.now (Cache.Key.version "v") = some 2 ∧
    s.entries.reading s.now (Cache.Key.version "v:version") = some 0 := by
  have hcalls : ∀ i, ({} : State).calls i = none := fun _ => rfl
  have habsent : ({} : State).entries.HasNoCounters := fun _ _ => rfl
  have hincrement : ∀ i key failure,
      .exchange i ⟨.cache (.increment key), .error failure⟩ ∉ fiveCalls := by
    simp [fiveCalls]
  obtain ⟨s, hrun, hended, hone, hv, hother⟩ : ∃ s,
      Run (cached .direct .direct (.ofSeconds 60)) {} fiveCalls s ∧
      (∀ i r, s.calls i = some r → r.hasEnded = true) ∧
      succeeded Operation.changesOne fiveCalls s = 1 ∧
      succeeded (Operation.changesVideo "v") fiveCalls s = 2 ∧
      succeeded (Operation.changesVideo "v:version") fiveCalls s = 0 := by
    refine ⟨_,
      .cons (.begin rfl) <|
      .cons (.begin rfl) <|
      .cons (.exchange rfl (.cache _)) <|
      .cons (.exchange rfl (.store _ _)) <|
      .cons (.begin rfl) <|
      .cons (.exchange rfl (.cache _)) <|
      .cons (.exchange rfl (.store _ _)) <|
      .cons (.exchange rfl (.get (by decide +kernel))) <|
      .cons (.exchange rfl (.cache _)) <|
      .cons (.exchange rfl (.get (by decide))) <|
      .cons (.exchange rfl (.store _ _)) <|
      .cons (.exchange rfl (.cache _)) <|
      .cons (.begin rfl) <|
      .cons (.exchange rfl (.store _ _)) <|
      .cons (.expire _) <|
      .cons (.begin rfl) <|
      .cons (.exchange rfl (.store _ _)) <|
      .cons (.exchange rfl (.of_apply (by decide +kernel))) (.nil _), fun i r hr => ?_, ?_, ?_, ?_⟩
    · simp only [State.set, Function.update_apply] at hr
      split_ifs at hr <;> cases hr <;> rfl
    · decide
    · decide
    · decide
  have hcount := (counters_count_writes (.ofSeconds 60) hcalls habsent hrun).2 hincrement hended
  refine ⟨hcalls, habsent, s, hrun, hincrement, hended, ?_, ?_, ?_⟩
  · rw [hcount.1, hone]
    rfl
  · rw [hcount.2, hv]
    rfl
  · rw [hcount.2, hother]
    rfl

end Interleaving

end VideoComments

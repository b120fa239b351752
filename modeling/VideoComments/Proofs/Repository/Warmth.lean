import VideoComments.Proofs.Cache.Working
import VideoComments.Proofs.Repository.Faithful
import VideoComments.Proofs.Repository.Session

/-!
# Warm pages

A page is warm in a world if listing it there asks the repository under the cache for nothing
(`IsWarm`). Where the cache works this can be seen from what it holds: both counters read as
integers, and a page is found under the key made of them (`isWarm_iff`).

`Leaves` says what a call may answer and what it may leave in a cache that works, over any
repository that does not touch the cache itself (`SparesCache`). Whatever was under the key of a
page, a listing that succeeds leaves there what it answers, changes nothing else, and makes the page
warm (`listing_heals`).
-/

namespace VideoComments

/-! ## What a listing finds -/

namespace Cache.Entries

/-- The page under a key at a time, if what is there is one. -/
def page? (es : Entries) (now : Nat) (key : String) : Option (List Comment) :=
  (es.live? now key).bind fun e => (Utf8.decode? e.value).bind Page.decode?

/-- The key under which a page is looked up at a time, if the counters read as integers. -/
def pageKey? (es : Entries) (now : Nat) (video : String) (limit offset : Int) : Option String :=
  (es.reading now Key.generation).bind fun g =>
    (es.reading now (Key.version video)).map fun n => Key.page video g n limit offset

/-- The page that a listing finds at a time. -/
def found? (es : Entries) (now : Nat) (video : String) (limit offset : Int) :
    Option (List Comment) :=
  (es.pageKey? now video limit offset).bind (es.page? now)

variable {es es' : Entries} {now now' : Nat} {video : String} {limit offset : Int} {key : String}

theorem pageKey?_of_reading {g n : Int} (hg : es.reading now Key.generation = some g)
    (hn : es.reading now (Key.version video) = some n) (limit offset : Int) :
    es.pageKey? now video limit offset = some (Key.page video g n limit offset) := by
  rw [pageKey?, hg, hn]
  rfl

theorem pageKey?_eq_some (h : es.pageKey? now video limit offset = some key) :
    ∃ g n, es.reading now Key.generation = some g ∧
      es.reading now (Key.version video) = some n ∧ key = Key.page video g n limit offset := by
  obtain ⟨g, hg, h⟩ := Option.bind_eq_some_iff.1 h
  obtain ⟨n, hn, rfl⟩ := Option.map_eq_some_iff.1 h
  exact ⟨g, n, hg, hn, rfl⟩

theorem found?_of_pageKey? (h : es.pageKey? now video limit offset = some key) :
    es.found? now video limit offset = es.page? now key := by
  rw [found?, h, Option.bind_some]

theorem page?_congr (h : es'.live? now' key = es.live? now key) :
    es'.page? now' key = es.page? now key := by
  rw [page?, page?, h]

theorem reading_congr_live (h : es'.live? now' key = es.live? now key) :
    es'.reading now' key = es.reading now key := by
  rw [reading, reading, h]

theorem live?_congr (h : es'.lookup key = es.lookup key) (now : Nat) :
    es'.live? now key = es.live? now key := by
  rw [live?, live?, h]

/-- A page that is kept is read back until it expires. -/
theorem page?_of_lookup {page : List Comment} {expiry : Nat}
    (h : es.lookup key = some { value := Utf8.encode (Page.encode page), expiry := some expiry })
    (hexpiry : now < expiry) : es.page? now key = some page := by
  have hlive := live?_eq_some.2 ⟨h, decide_eq_true hexpiry⟩
  rw [page?, hlive, Option.bind_some, Utf8.decode?_encode, Option.bind_some, Page.decode?_encode]

end Cache.Entries

namespace Repository

open Program
open Cache (Entries)

/-- Does listing a page now ask the inner repository for nothing? -/
def IsWarm (inner : Repository) (cache : CacheKind) (lifetime : Duration) (w : World)
    (video : String) (limit offset : Int) : Prop :=
  ∀ x ∈ conversation World.handler inner cache.client lifetime (.list video limit offset) w,
    x.isStore = false

instance IsWarm.decidable (inner : Repository) (cache : CacheKind) (lifetime : Duration) (w : World)
    (video : String) (limit offset : Int) :
    Decidable (IsWarm inner cache lifetime w video limit offset) :=
  inferInstanceAs (Decidable (∀ x ∈ _, _))

/-- The inner repository is asked unless there is a key and a page under it. -/
theorem not_isStore_conversation_iff {σ : Type} (h : Handler σ) (inner : Repository)
    (client : Cache.Client) (lifetime : Duration) (video : String) (limit offset : Int) (s : σ) :
    (∀ x ∈ conversation h inner client lifetime (.list video limit offset) s,
        x.isStore = false) ↔
      ∃ key page, ((pageKey client video limit offset).run h s).1 = some key ∧
        ((cachedPage client key).run h
          ((pageKey client video limit offset).run h s).2).1 = some page := by
  have hkeyRun := run_expand inner client h (pageKey .direct video limit offset) s
  rw [expand_pageKey] at hkeyRun
  obtain ⟨xs, p?, hxs, hkey, hcounters⟩ :=
    (pageKey_transcript [] video limit offset).run (h.through inner client) s
  simp only [List.nil_append] at hxs
  rw [conversation, cached, listCached, exchanges_bind, hkeyRun]
  generalize (pageKey .direct video limit offset).run (h.through inner client) s = r at hkey ⊢
  obtain ⟨key?, s₁⟩ := r
  simp only at hkey ⊢
  subst hkey
  have hasked : ∀ x ∈ xs, x.isStore = false := fun x hx => by
    simpa using List.filter_eq_nil_iff.1 hcounters.filter_isStore x hx
  rw [hxs]
  cases p? with
  | none =>
    refine iff_of_false (fun hnone => ?_) (by simp)
    have hstore : true = false := hnone _ (List.mem_append_right xs List.mem_cons_self)
    cases hstore
  | some p =>
    have hpageRun := run_expand inner client h (cachedPage .direct p.key) s₁
    rw [expand_cachedPage] at hpageRun
    obtain ⟨ys, hys, hfound⟩ :=
      (cachedPage_transcript [] p.key).run (h.through inner client) s₁
    simp only [List.nil_append] at hys
    simp only [Option.map_some, exchanges_bind, Option.some.injEq, exists_and_left,
      exists_eq_left', hpageRun, hys]
    generalize (cachedPage .direct p.key).run (h.through inner client) s₁ = r at hfound ⊢
    obtain ⟨page?, s₂⟩ := r
    simp only at hfound ⊢
    rcases hfound with ⟨rfl, -⟩ | ⟨text, page, rfl, -, rfl⟩
    · refine iff_of_false (fun hnone => ?_) (by simp)
      have hstore : true = false :=
        hnone _ (List.mem_append_right xs (List.mem_append_right ys List.mem_cons_self))
      cases hstore
    · refine ⟨fun _ => ⟨page, rfl⟩, fun _ x hx => ?_⟩
      rcases List.mem_append.1 hx with hx | hx
      · exact hasked x hx
      · obtain rfl := List.mem_singleton.1 hx
        rfl

/-! ## The parts of a listing on a cache that works -/

section

variable {cache : CacheKind} {w : World}

theorem toOption_readCounter (hw : w.CacheWorks cache) (key : String) :
    ((readCounter cache.client key).run World.handler w).1.toOption =
      w.entries.reading w.now key := by
  rw [readCounter, run_bind, cache.client_get hw key, Cache.Operation.apply, Entries.reading]
  cases w.entries.live? w.now key with
  | none => rfl
  | some e =>
    simp only [Cache.Operation.valueText]
    cases Utf8.decode? e.value with
    | none => rfl
    | some text =>
      simp only [Except.map, Option.bind_some]
      cases Decimal.int64? text.toList <;> rfl

theorem run_pageKey (hw : w.CacheWorks cache) (video : String) (limit offset : Int) :
    ((pageKey cache.client video limit offset).run World.handler w).1 =
      w.entries.pageKey? w.now video limit offset := by
  have hg := toOption_readCounter hw Cache.Key.generation
  have hw₁ := hw.run (readCounter cache.client Cache.Key.generation)
  obtain ⟨-, hes, hsame⟩ := readCounter_spec cache Cache.Key.generation w
  rw [pageKey, run_bind, readCounters, run_bind, Entries.pageKey?, ← hg]
  generalize (readCounter cache.client Cache.Key.generation).run World.handler w = r at *
  obtain ⟨answer, w₁⟩ := r
  cases answer with
  | error failure => rfl
  | ok g =>
    have hn := toOption_readCounter hw₁ (Cache.Key.version video)
    simp only at hn hes hsame ⊢
    rw [hes, hsame.now] at hn
    rw [run_bind, ← hn]
    cases ((readCounter cache.client (Cache.Key.version video)).run World.handler w₁).1 <;> rfl

theorem run_cachedPage (hw : w.CacheWorks cache) (key : String) :
    ((cachedPage cache.client key).run World.handler w).1 = w.entries.page? w.now key := by
  rw [cachedPage, run_bind, cache.client_get hw key, Cache.Operation.apply, Entries.page?]
  cases w.entries.live? w.now key with
  | none => rfl
  | some e =>
    simp only [Cache.Operation.valueText, Option.bind_some]
    cases Utf8.decode? e.value with
    | none => rfl
    | some text =>
      simp only [Except.map, Option.bind_some]
      cases Page.decode? text with
      | some page => rfl
      | none => simp only [run_bind, run_pure]

/-- **A page is warm if listing it finds a page in the cache**, and only then. -/
theorem isWarm_iff (hw : w.CacheWorks cache) (inner : Repository) (lifetime : Duration)
    (video : String) (limit offset : Int) :
    IsWarm inner cache lifetime w video limit offset ↔
      ∃ page, w.entries.found? w.now video limit offset = some page := by
  rw [IsWarm, not_isStore_conversation_iff, run_pageKey hw]
  have hw₁ := hw.run (pageKey cache.client video limit offset)
  obtain ⟨-, hes, hsame⟩ := pageKey_spec cache video limit offset w
  simp only [run_cachedPage hw₁, hes, hsame.now, Entries.found?, Option.bind_eq_some_iff]
  exact exists_comm.trans (exists_congr fun _ => exists_congr fun _ => Iff.rfl)

theorem run_storePage (hw : w.CacheWorks cache) {lifetime : Duration}
    (haccepts : cache.Accepts lifetime) (key : String) (page : List Comment) :
    ∃ expiry, w.now < expiry ∧
      ((storePage cache.client lifetime key page).run World.handler w).2.entries =
        w.entries.put key { value := Utf8.encode (Page.encode page), expiry := some expiry } := by
  obtain ⟨expiry, hexpiry, hes⟩ := cache.client_set hw key (Page.encode page) haccepts
  refine ⟨expiry, hexpiry, ?_⟩
  rw [storePage, run_bind, ← hes]
  cases ((cache.client (.set key (Page.encode page) lifetime)).run World.handler w).1 <;> rfl

theorem run_invalidate (hw : w.CacheWorks cache) {counter : String} {n : Int} {es : Entries}
    (hinc : w.entries.increment w.now counter = (.ok n, es)) :
    ((invalidate cache.client counter).run World.handler w).2.entries = es := by
  rw [invalidate, run_bind, ← cache.client_increment hw hinc]
  cases ((cache.client (.increment counter)).run World.handler w).1 <;> rfl

end

/-! ## What a call leaves in a cache that works -/

/-- The repository does not touch the cache. -/
def SparesCache (inner : Repository) : Prop :=
  ∀ op w, ((inner op).run World.handler w).2.entries = w.entries

/-- The repositories over a store do not touch the cache. -/
theorem sparesCache_repository (store : StoreKind) : SparesCache store.repository :=
  fun op w => (store.repository_does op w).sameCache.entries

/-- What a call may answer, and what it may leave in a cache that works. -/
inductive Leaves (now : Nat) (es : Entries) :
    (op : Operation) → Except Failure op.Answer → Entries → Prop
  /-- A page is found. -/
  | hit {video : String} {limit offset : Int} {page : List Comment}
      (hfound : es.found? now video limit offset = some page) :
      Leaves now es (.list video limit offset) (.ok page) es
  /-- No page is found, and the one that the repository answers is kept. -/
  | kept {video key : String} {limit offset : Int} {page : List Comment} {expiry : Nat}
      {es' : Entries} (hkey : es.pageKey? now video limit offset = some key)
      (hmiss : es.page? now key = none) (hexpiry : now < expiry)
      (hes : ∀ key', es'.lookup key' = if key' = key then
        some { value := Utf8.encode (Page.encode page), expiry := some expiry }
        else es.lookup key') :
      Leaves now es (.list video limit offset) (.ok page) es'
  /-- No page is found, and the repository fails. -/
  | missed {video key : String} {limit offset : Int} {es' : Entries} (failure : Failure)
      (hkey : es.pageKey? now video limit offset = some key) (hmiss : es.page? now key = none)
      (hes : es' = es ∨ es' = es.erase key) :
      Leaves now es (.list video limit offset) (.error failure) es'
  /-- The counters read as no integers, and the repository answers. -/
  | through {video : String} {limit offset : Int}
      (hkey : es.pageKey? now video limit offset = none)
      (answer : Except Failure (List Comment)) :
      Leaves now es (.list video limit offset) answer es
  /-- A write fails. -/
  | refused {op : Operation} {counter : String} (hcounter : counterOf op = some counter)
      (failure : Failure) : Leaves now es op (.error failure) es
  /-- A write succeeds and is counted. -/
  | counted {op : Operation} {answer : op.Answer} {counter : String} {n : Int} {es' : Entries}
      (hcounter : counterOf op = some counter) (hinc : es.increment now counter = (.ok n, es')) :
      Leaves now es op (.ok answer) es'
  /-- A write succeeds and cannot be counted. -/
  | uncounted {op : Operation} {answer : op.Answer} {counter : String} {fault : Cache.CounterFault}
      (hcounter : counterOf op = some counter)
      (hinc : (es.increment now counter).1 = .error fault) : Leaves now es op (.ok answer) es

section

variable {inner : Repository} {cache : CacheKind} {lifetime : Duration} {w : World}

/-- The part of a listing that follows once the key of its page is known. -/
def listUnder (inner : Repository) (cache : Cache.Client) (lifetime : Duration) (video : String)
    (limit offset : Int) (key : String) : Program (Except Failure (List Comment)) := do
  match ← cachedPage cache key with
  | some comments => return .ok comments
  | none =>
    match ← inner (.list video limit offset) with
    | .error failure => return .error failure
    | .ok comments =>
      storePage cache lifetime key comments
      return .ok comments

variable (inner lifetime) in
/-- Finding out the key changes nothing that counts. -/
theorem run_listCached (hw : w.CacheWorks cache) (video : String) (limit offset : Int) :
    ∃ w₁ : World, w₁.CacheWorks cache ∧ w₁.entries = w.entries ∧ w₁.now = w.now ∧
      (listCached inner cache.client lifetime video limit offset).run World.handler w =
        match w.entries.pageKey? w.now video limit offset with
        | none => (inner (.list video limit offset)).run World.handler w₁
        | some key =>
          (listUnder inner cache.client lifetime video limit offset key).run World.handler w₁ := by
  have hkey := run_pageKey hw video limit offset
  obtain ⟨-, hes, hsame⟩ := pageKey_spec cache video limit offset w
  refine ⟨_, hw.run (pageKey cache.client video limit offset), hes, hsame.now, ?_⟩
  rw [listCached, run_bind, ← hkey]
  cases ((pageKey cache.client video limit offset).run World.handler w).1 <;> rfl

/-- A listing that finds its page answers it. -/
theorem run_listUnder_of_hit (hw : w.CacheWorks cache) {video : String} {limit offset g n : Int}
    {page : List Comment}
    (hhit : w.entries.page? w.now (Cache.Key.page video g n limit offset) = some page) :
    ((listUnder inner cache.client lifetime video limit offset
        (Cache.Key.page video g n limit offset)).run World.handler w).1 = .ok page ∧
      ((listUnder inner cache.client lifetime video limit offset
        (Cache.Key.page video g n limit offset)).run World.handler w).2.entries = w.entries := by
  have hpage := run_cachedPage hw (Cache.Key.page video g n limit offset)
  obtain ⟨hkeeps, -, -⟩ := cachedPage_spec cache video g n limit offset w
  rw [hhit] at hpage
  rw [listUnder, run_bind, hpage]
  exact ⟨rfl, (hkeeps page hpage).1⟩

variable (lifetime) in
/-- A listing that does not find its page asks the repository, and keeps what that answers. What was
under the key may have been dropped before. -/
theorem run_listUnder_of_miss (hinner : inner.SparesCache) (hw : w.CacheWorks cache)
    {video : String} {limit offset g n : Int}
    (hmiss : w.entries.page? w.now (Cache.Key.page video g n limit offset) = none) :
    ∃ (answer : Except Failure (List Comment)) (w₁ : World), w₁.CacheWorks cache ∧
      w₁.now = w.now ∧ (w₁.entries = w.entries ∨
        w₁.entries = w.entries.erase (Cache.Key.page video g n limit offset)) ∧
      (listUnder inner cache.client lifetime video limit offset
          (Cache.Key.page video g n limit offset)).run World.handler w =
        (answer, match answer with
          | .error _ => w₁
          | .ok page => ((storePage cache.client lifetime (Cache.Key.page video g n limit offset)
              page).run World.handler w₁).2) := by
  have hpage := run_cachedPage hw (Cache.Key.page video g n limit offset)
  obtain ⟨-, hdiscards, hsame⟩ := cachedPage_spec cache video g n limit offset w
  have hw₁ := hw.run (cachedPage cache.client (Cache.Key.page video g n limit offset))
  rw [listUnder, run_bind]
  generalize (cachedPage cache.client (Cache.Key.page video g n limit offset)).run World.handler
    w = r at *
  obtain ⟨page?, w₁⟩ := r
  simp only at hpage hdiscards hsame hw₁ ⊢
  obtain rfl := hpage.trans hmiss
  rw [run_bind]
  refine ⟨((inner (.list video limit offset)).run World.handler w₁).1, _,
    hw₁.run (inner (.list video limit offset)),
    (World.run_leaves (inner (.list video limit offset)) w₁).1.trans hsame.now, ?_, ?_⟩
  · rw [hinner]
    exact hdiscards.imp_right And.left
  · cases ((inner (.list video limit offset)).run World.handler w₁).1 with
    | error failure => rfl
    | ok page => rw [run_bind]; rfl

theorem listCached_leaves (hinner : inner.SparesCache) (haccepts : cache.Accepts lifetime)
    (hw : w.CacheWorks cache) (video : String) (limit offset : Int) :
    Leaves w.now w.entries (.list video limit offset)
      ((listCached inner cache.client lifetime video limit offset).run World.handler w).1
      ((listCached inner cache.client lifetime video limit offset).run World.handler
        w).2.entries := by
  obtain ⟨w₁, hw₁, hes₁, hnow₁, hrun⟩ := run_listCached inner lifetime hw video limit offset
  rw [hrun]
  cases hkey : w.entries.pageKey? w.now video limit offset with
  | none =>
    simp only
    rw [hinner, hes₁]
    exact .through hkey _
  | some key =>
    obtain ⟨g, n, -, -, rfl⟩ := Entries.pageKey?_eq_some hkey
    simp only
    cases hpage : w.entries.page? w.now (Cache.Key.page video g n limit offset) with
    | some page =>
      obtain ⟨hanswer, hes₂⟩ := run_listUnder_of_hit hw₁ (by rw [hes₁, hnow₁, hpage])
      rw [hanswer, hes₂, hes₁]
      exact .hit (by rw [Entries.found?_of_pageKey? hkey, hpage])
    | none =>
      obtain ⟨answer, w₂, hw₂, hnow₂, hes₂, hrun₁⟩ :=
        run_listUnder_of_miss lifetime hinner hw₁ (by rw [hes₁, hnow₁, hpage])
      rw [hrun₁]
      rw [hes₁] at hes₂
      cases answer with
      | error failure => exact .missed failure hkey hpage hes₂
      | ok page =>
        obtain ⟨expiry, hexpiry, hes₃⟩ := run_storePage hw₂ haccepts
          (Cache.Key.page video g n limit offset) page
        rw [hnow₂, hnow₁] at hexpiry
        refine .kept hkey hpage hexpiry fun key' => ?_
        simp only
        rw [hes₃, Entries.lookup_put]
        rcases hes₂ with hes₂ | hes₂
        · rw [hes₂]
        · rw [hes₂, Entries.lookup_erase]
          split <;> rfl

theorem writeThrough_leaves (hinner : inner.SparesCache) (hw : w.CacheWorks cache)
    {op : Operation} {counter : String} (hcounter : counterOf op = some counter) :
    Leaves w.now w.entries op
      ((writeThrough inner cache.client op).run World.handler w).1
      ((writeThrough inner cache.client op).run World.handler w).2.entries := by
  have hes₁ := hinner op w
  have hw₁ := hw.run (inner op)
  have hnow₁ := (World.run_leaves (inner op) w).1
  rw [writeThrough, run_bind]
  generalize (inner op).run World.handler w = r at *
  obtain ⟨answer, w₁⟩ := r
  simp only at hes₁ hw₁ hnow₁ ⊢
  cases answer with
  | error failure =>
    simp only [run_pure]
    rw [hes₁]
    exact .refused hcounter failure
  | ok answer =>
    simp only [hcounter, run_bind, run_pure]
    cases hinc : w.entries.increment w.now counter with
    | mk result es =>
      cases result with
      | ok n =>
        rw [run_invalidate hw₁ (by rw [hes₁, hnow₁, hinc])]
        exact .counted hcounter hinc
      | error fault =>
        -- Counting a write has no outcome but these, and an increment that fails changes nothing.
        obtain ⟨⟨m, hm⟩ | ⟨hes, -⟩, -⟩ := invalidate_spec cache counter w₁
        · rw [hes₁, hnow₁, hinc] at hm
          cases hm
        · rw [hes, hes₁]
          exact .uncounted hcounter (by rw [hinc])

/-- **What a call leaves in a cache that works.** -/
theorem cached_leaves (hinner : inner.SparesCache) (haccepts : cache.Accepts lifetime)
    (hw : w.CacheWorks cache) (op : Operation) :
    Leaves w.now w.entries op
      ((cached inner cache.client lifetime op).run World.handler w).1
      ((cached inner cache.client lifetime op).run World.handler w).2.entries := by
  cases op with
  | list video limit offset => exact listCached_leaves hinner haccepts hw video limit offset
  | create | update | delete | deleteByVideo => exact writeThrough_leaves hinner hw rfl

/-! ## Listings heal the cache -/

section

variable {now : Nat} {es es' : Entries} {video key : String} {limit offset : Int}

/-- A listing that finds a page answers it, and changes nothing. -/
theorem Leaves.of_found {r : Except Failure (List Comment)} {page : List Comment}
    (h : Leaves now es (.list video limit offset) r es')
    (hfound : es.found? now video limit offset = some page) : r = .ok page ∧ es' = es := by
  cases h with
  | hit hfound' =>
    rw [hfound] at hfound'
    cases hfound'
    exact ⟨rfl, rfl⟩
  | kept hkey hmiss | missed failure hkey hmiss =>
    rw [Entries.found?_of_pageKey? hkey, hmiss] at hfound
    cases hfound
  | through hkey =>
    rw [Entries.found?, hkey] at hfound
    cases hfound
  | refused hcounter | counted hcounter | uncounted hcounter => cases hcounter

/-- A listing that succeeds and knows the key of its page leaves there what it answers. -/
theorem Leaves.page?_of_ok {page : List Comment}
    (h : Leaves now es (.list video limit offset) (.ok page) es')
    (hkey : es.pageKey? now video limit offset = some key) :
    es'.page? now key = some page ∧ ∀ other, other ≠ key → es'.lookup other = es.lookup other := by
  cases h with
  | hit hfound =>
    rw [Entries.found?_of_pageKey? hkey] at hfound
    exact ⟨hfound, fun _ _ => rfl⟩
  | kept hkey' hmiss hexpiry hes =>
    obtain rfl : _ = key := Option.some.inj (hkey'.symm.trans hkey)
    refine ⟨Entries.page?_of_lookup ?_ hexpiry, fun other hne => ?_⟩
    · rw [hes, if_pos rfl]
    · rw [hes, if_neg hne]
  | through hkey' =>
    rw [hkey] at hkey'
    cases hkey'
  | counted hcounter | uncounted hcounter => cases hcounter

end

/-- **Listings heal the cache.** Whatever the cache holds, be it text or not, as long as both
counters of a page are absent or read as integers: after a listing that succeeds on a cache that
works, the page under its key is what was answered, and nothing else has changed. Until one of the
three entries changes or expires, the same listing gives the same answer without asking the
repository. -/
theorem listing_heals (hinner : inner.SparesCache) (haccepts : cache.Accepts lifetime)
    (hw : w.CacheWorks cache) {video : String} {limit offset g n : Int} {page : List Comment}
    (hg : w.entries.reading w.now Cache.Key.generation = some g)
    (hn : w.entries.reading w.now (Cache.Key.version video) = some n)
    (hok : ((cached inner cache.client lifetime (.list video limit offset)).run World.handler
      w).1 = .ok page) :
    let after := ((cached inner cache.client lifetime (.list video limit offset)).run
      World.handler w).2
    after.entries.page? after.now (Cache.Key.page video g n limit offset) = some page ∧
      (∀ other, other ≠ Cache.Key.page video g n limit offset →
        after.entries.lookup other = w.entries.lookup other) ∧
      ∀ w' : World, w'.CacheWorks cache →
        (∀ key ∈ [Cache.Key.generation, Cache.Key.version video,
            Cache.Key.page video g n limit offset],
          w'.entries.live? w'.now key = after.entries.live? after.now key) →
        IsWarm inner cache lifetime w' video limit offset ∧
          ((cached inner cache.client lifetime (.list video limit offset)).run World.handler
            w').1 = .ok page := by
  intro after
  have hkey := Entries.pageKey?_of_reading hg hn limit offset
  have hnow : after.now = w.now := (World.run_leaves _ w).1
  have hleaves := cached_leaves hinner haccepts hw (.list video limit offset)
  rw [hok] at hleaves
  obtain ⟨hpage, hother⟩ := hleaves.page?_of_ok hkey
  refine ⟨hnow ▸ hpage, hother, fun w' hw' hlive => ?_⟩
  simp only [List.forall_mem_cons, List.not_mem_nil, false_imp_iff, implies_true, and_true]
    at hlive
  obtain ⟨hliveGeneration, hliveVersion, hlivePage⟩ := hlive
  -- The counters are what they were before the listing, so the page is looked up where it was put.
  have hreading : ∀ counter, Cache.Key.IsCounter counter →
      w'.entries.live? w'.now counter = after.entries.live? after.now counter →
      w'.entries.reading w'.now counter = w.entries.reading w.now counter := by
    intro counter hcounter hcounterLive
    have hlookup := hother counter (Cache.Key.page_ne_counter hcounter video g n limit offset).symm
    rw [Entries.reading_congr_live hcounterLive, hnow]
    exact Entries.reading_congr hlookup w.now
  have hkey' := Entries.pageKey?_of_reading
    ((hreading _ Cache.Key.isCounter_generation hliveGeneration).trans hg)
    ((hreading _ (Cache.Key.isCounter_version video) hliveVersion).trans hn) limit offset
  have hfound : w'.entries.found? w'.now video limit offset = some page := by
    rw [Entries.found?_of_pageKey? hkey', Entries.page?_congr hlivePage, hnow]
    exact hpage
  refine ⟨(isWarm_iff hw' inner lifetime video limit offset).2 ⟨page, hfound⟩, ?_⟩
  exact ((cached_leaves hinner haccepts hw' (.list video limit offset)).of_found hfound).1

end

/-- The generation is written with a sign, and what is under the key of a page is no text. -/
def garbled : World :=
  ({ entries := [(Cache.Key.generation, { value := Utf8.encode "+2" }),
      (Cache.Key.page "v" 2 0 10 0, { value := [0x5b, 0xff] })] } : World).insertRow none
    (.numbered 1) "v" (some "x")

/-- After the first listing the page is warm. -/
theorem listing_heals_garbled :
    garbled.CacheWorks .redis ∧ CacheKind.redis.Accepts (.ofSeconds 60) ∧
    garbled.entries.reading garbled.now Cache.Key.generation = some 2 ∧
    garbled.entries.reading garbled.now (Cache.Key.version "v") = some 0 ∧
    ¬ IsWarm StoreKind.database.repository .redis (.ofSeconds 60) garbled "v" 10 0 ∧
    ((minutely (.list "v" 10 0)).run World.handler garbled).1 = .ok [⟨.numbered 1, "v", "x"⟩] ∧
    IsWarm StoreKind.database.repository .redis (.ofSeconds 60)
      ((minutely (.list "v" 10 0)).run World.handler garbled).2 "v" 10 0 := by
  have hworks : garbled.CacheWorks .redis := ⟨fun _ => rfl, fun _ h => by cases h⟩
  have haccepts : CacheKind.redis.Accepts (.ofSeconds 60) := by decide
  have hg : garbled.entries.reading garbled.now Cache.Key.generation = some 2 := by
    decide
  have hn : garbled.entries.reading garbled.now (Cache.Key.version "v") = some 0 := by
    decide
  have hcold : ¬ IsWarm StoreKind.database.repository .redis (.ofSeconds 60) garbled "v" 10 0 := by
    decide +kernel
  have hok : ((minutely (.list "v" 10 0)).run World.handler garbled).1 =
      .ok [⟨.numbered 1, "v", "x"⟩] := by decide +kernel
  obtain ⟨-, -, hrepeat⟩ :=
    listing_heals (sparesCache_repository .database) haccepts hworks hg hn hok
  exact ⟨hworks, haccepts, hg, hn, hcold, hok, (hrepeat _ (hworks.run _) fun _ _ => rfl).1⟩

end Repository

end VideoComments

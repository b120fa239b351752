import VideoComments.Proofs.Comment.Page
import VideoComments.Proofs.Repository.Basic

/-!
# What a repository with a cache does

Each part of a call is described by what it finds in the cache and what it leaves there, and the
parts add up to the outcomes that a call may have (`Outcome`, `cached_does`).

* A listing is a hit, or the store answers it; what it leaves is the cache as it was, less a value
  that was no page, and with the store's page under the counters that were read.
* A write does to the store what it means. If it succeeds, the counter that it depends on goes up by
  one, or the increment fails and the cache stays as it was.
-/

namespace VideoComments.Repository

open Cache (Entries)
open Cache.Entries (Shrinks)

variable (cache : CacheKind)

/-! ## Reading the counters -/

/-- A counter that could be read is what it reads as, and nothing has changed. -/
theorem readCounter_spec (key : String) (w : World) :
    (∀ i, ((readCounter cache.client key).run World.handler w).1 = .ok i →
        w.entries.reading w.now key = some i) ∧
      ((readCounter cache.client key).run World.handler w).2.entries = w.entries ∧
      w.SameStore ((readCounter cache.client key).run World.handler w).2 := by
  obtain ⟨hout, hsame⟩ := cache.client_does (.get key) w
  rw [readCounter, Program.run_bind]
  generalize (cache.client (.get key)).run World.handler w = r at hout hsame ⊢
  obtain ⟨answer, w'⟩ := r
  simp only at hout hsame ⊢
  generalize hes : w'.entries = es at hout
  cases hout with
  | failed failure => exact ⟨fun i h => (by cases h), hes, hsame⟩
  | absent hlive =>
    refine ⟨fun i h => ?_, hes, hsame⟩
    obtain rfl : 0 = i := by simpa using h
    rw [Entries.reading, hlive]
  | found hlive htext =>
    simp only
    split
    · next i hi =>
      refine ⟨fun j h => ?_, hes, hsame⟩
      obtain rfl : i = j := by simpa using h
      rw [Entries.reading, hlive]
      simp only [htext, Option.bind_some, hi]
    · exact ⟨fun i h => (by cases h), hes, hsame⟩

theorem readCounters_spec (video : String) (w : World) :
    (∀ g n, ((readCounters cache.client video).run World.handler w).1 = .ok (g, n) →
        w.entries.reading w.now Cache.Key.generation = some g ∧
          w.entries.reading w.now (Cache.Key.version video) = some n) ∧
      ((readCounters cache.client video).run World.handler w).2.entries = w.entries ∧
      w.SameStore ((readCounters cache.client video).run World.handler w).2 := by
  obtain ⟨hg, hes, hsame⟩ := readCounter_spec cache Cache.Key.generation w
  rw [readCounters, Program.run_bind]
  generalize (readCounter cache.client Cache.Key.generation).run World.handler w = r at *
  obtain ⟨answer, w₁⟩ := r
  cases answer with
  | error failure => exact ⟨fun g n h => (by cases h), hes, hsame⟩
  | ok g =>
    simp only at hg hes hsame ⊢
    obtain ⟨hn, hes', hsame'⟩ := readCounter_spec cache (Cache.Key.version video) w₁
    rw [Program.run_bind]
    generalize (readCounter cache.client (Cache.Key.version video)).run World.handler w₁ = r at *
    obtain ⟨answer, w₂⟩ := r
    cases answer with
    | error failure => exact ⟨fun g n h => (by cases h), hes'.trans hes, hsame.trans hsame'⟩
    | ok n =>
      refine ⟨fun g' n' h => ?_, hes'.trans hes, hsame.trans hsame'⟩
      obtain ⟨rfl, rfl⟩ : g = g' ∧ n = n' := by simpa using h
      refine ⟨hg g rfl, ?_⟩
      rw [← hes, ← hsame.now]
      exact hn n rfl

/-- A page is looked up under the numbers that the counters read as. -/
theorem pageKey_spec (video : String) (limit offset : Int) (w : World) :
    (∀ key, ((pageKey cache.client video limit offset).run World.handler w).1 = some key →
        ∃ g n, w.entries.reading w.now Cache.Key.generation = some g ∧
          w.entries.reading w.now (Cache.Key.version video) = some n ∧
          key = Cache.Key.page video g n limit offset) ∧
      ((pageKey cache.client video limit offset).run World.handler w).2.entries = w.entries ∧
      w.SameStore ((pageKey cache.client video limit offset).run World.handler w).2 := by
  obtain ⟨hread, hes, hsame⟩ := readCounters_spec cache video w
  rw [pageKey, Program.run_bind]
  generalize (readCounters cache.client video).run World.handler w = r at *
  obtain ⟨answer, w'⟩ := r
  cases answer with
  | error failure =>
    exact ⟨fun key h => (by cases h), hes, hsame.trans (World.sameStore_receive (.log _) _)⟩
  | ok counters =>
    obtain ⟨g, n⟩ := counters
    obtain ⟨hg, hn⟩ := hread g n rfl
    refine ⟨fun key h => ⟨g, n, hg, hn, ?_⟩, hes, hsame⟩
    simpa [eq_comm] using h

/-! ## Looking a page up -/

/-- Nothing has changed, but that a value that is no page may have been removed from under a key. -/
def Discards (now : Nat) (key : String) (es es' : Entries) : Prop :=
  es' = es ∨ es' = es.erase key ∧ ∃ e text, es.live? now key = some e ∧
    Utf8.decode? e.value = some text ∧ Page.decode? text = none

theorem Discards.shrinks {now : Nat} {video : String} {g n limit offset : Int} {es es' : Entries}
    (h : Discards now (Cache.Key.page video g n limit offset) es es') : es.Shrinks es' := by
  rcases h with rfl | ⟨rfl, -⟩
  · exact .refl _
  · exact Entries.shrinks_erase_page es video g n limit offset

/-- A page that was found is under its key; nothing is lost but a value that is no page. -/
theorem cachedPage_spec (video : String) (g n limit offset : Int) (w : World) :
    (∀ page, ((cachedPage cache.client (Cache.Key.page video g n limit offset)).run World.handler
          w).1 = some page →
        ((cachedPage cache.client (Cache.Key.page video g n limit offset)).run World.handler
          w).2.entries = w.entries ∧
        ∃ e text, w.entries.live? w.now (Cache.Key.page video g n limit offset) = some e ∧
          Utf8.decode? e.value = some text ∧ Page.decode? text = some page) ∧
      Discards w.now (Cache.Key.page video g n limit offset) w.entries
        ((cachedPage cache.client (Cache.Key.page video g n limit offset)).run World.handler
          w).2.entries ∧
      w.SameStore ((cachedPage cache.client (Cache.Key.page video g n limit offset)).run
        World.handler w).2 := by
  generalize hkey : Cache.Key.page video g n limit offset = key
  obtain ⟨hout, hsame⟩ := cache.client_does (.get key) w
  rw [cachedPage, Program.run_bind]
  generalize (cache.client (.get key)).run World.handler w = r at hout hsame ⊢
  obtain ⟨answer, w'⟩ := r
  simp only at hout hsame ⊢
  generalize hes : w'.entries = es at hout
  cases hout with
  | failed failure =>
    exact ⟨fun page h => (by cases h), .inl hes, hsame.trans (World.sameStore_receive (.log _) _)⟩
  | absent hlive =>
    exact ⟨fun page h => (by cases h), .inl hes, hsame⟩
  | @found _ text e hlive htext =>
    simp only
    cases hpage : Page.decode? text with
    | some page =>
      refine ⟨fun page' h => ⟨hes, e, text, hlive, htext, ?_⟩, .inl hes, hsame⟩
      simpa [hpage] using h
    | none =>
      simp only [dropPage, Program.run_bind, Program.run_log, Program.run_pure]
      refine ⟨fun page h => (by cases h), ?_⟩
      generalize hlog : World.handler.receive _ w' = w₁
      have hsame₁ : w.SameStore w₁ := hlog ▸ hsame.trans (World.sameStore_receive (.log _) _)
      have hes₁ : w₁.entries = w.entries := by rw [← hlog, ← hes]; rfl
      obtain ⟨hout, hsame'⟩ := cache.client_does (.delete key) w₁
      generalize (cache.client (.delete key)).run World.handler w₁ = r at hout hsame' ⊢
      obtain ⟨answer, w₂⟩ := r
      simp only at hout hsame' ⊢
      generalize hes₂ : w₂.entries = es' at hout
      cases hout with
      | failed failure =>
        refine ⟨.inl ?_, (hsame₁.trans hsame').trans (World.sameStore_receive (.log _) _)⟩
        rw [← hes₁, ← hes₂]
        rfl
      | deleted =>
        refine ⟨.inr ⟨?_, e, text, hlive, htext, hpage⟩, hsame₁.trans hsame'⟩
        simp only [Program.run_pure]
        rw [hes₂, hes₁]

/-! ## Keeping a page -/

/-- A page is kept for its lifetime at most, or not at all. -/
theorem storePage_spec (lifetime : Duration) (key : String) (page : List Comment) (w : World) :
    (((storePage cache.client lifetime key page).run World.handler w).2.entries = w.entries ∨
        ∃ expiry, expiry ≤ w.now + lifetime.milliseconds ∧
          ((storePage cache.client lifetime key page).run World.handler w).2.entries =
            w.entries.put key { value := Utf8.encode (Page.encode page), expiry := some expiry }) ∧
      w.SameStore ((storePage cache.client lifetime key page).run World.handler w).2 := by
  obtain ⟨hout, hsame⟩ := cache.client_does (.set key (Page.encode page) lifetime) w
  rw [storePage, Program.run_bind]
  generalize (cache.client (.set key (Page.encode page) lifetime)).run World.handler w = r
    at hout hsame ⊢
  obtain ⟨answer, w'⟩ := r
  simp only at hout hsame ⊢
  generalize hes : w'.entries = es at hout
  cases hout with
  | failed failure => exact ⟨.inl hes, hsame.trans (World.sameStore_receive (.log _) _)⟩
  | @set _ _ _ expiry hexpiry => exact ⟨.inr ⟨expiry, hexpiry, hes⟩, hsame⟩

/-! ## Counting a write -/

/-- A counter goes up by one, or its increment is among those that fail. -/
theorem invalidate_spec (counter : String) (w : World) :
    ((∃ n, w.entries.increment w.now counter =
          (.ok n, ((invalidate cache.client counter).run World.handler w).2.entries)) ∨
        ((invalidate cache.client counter).run World.handler w).2.entries = w.entries ∧
          ∃ x ∈ (invalidate cache.client counter).exchanges World.handler w,
            x.isFailedIncrement = true) ∧
      w.SameStore ((invalidate cache.client counter).run World.handler w).2 := by
  obtain ⟨hout, hsame⟩ := cache.client_does (.increment counter) w
  have hfail := cache.exists_isFailedIncrement counter w
  rw [invalidate, Program.run_bind, Program.exchanges_bind]
  generalize (cache.client (.increment counter)).run World.handler w = r at hout hsame hfail ⊢
  obtain ⟨answer, w'⟩ := r
  simp only at hout hsame hfail ⊢
  generalize hes : w'.entries = es at hout
  cases hout with
  | failed failure =>
    obtain ⟨x, hx, hfailed⟩ := hfail failure rfl
    exact ⟨.inr ⟨hes, x, List.mem_append_left _ hx, hfailed⟩,
      hsame.trans (World.sameStore_receive (.log _) _)⟩
  | @incremented _ n _ hinc =>
    refine ⟨.inl ⟨n, ?_⟩, hsame.trans (World.sameStore_receive (.log _) _)⟩
    rw [hinc, ← hes]
    rfl

/-! ## Calls -/

variable (store : StoreKind) (lifetime : Duration)

theorem isCounter_of_counterOf {op : Operation} {counter : String}
    (h : counterOf op = some counter) : Cache.Key.IsCounter counter := by
  cases op with
  | list video limit offset => cases h
  | create comment => cases h; exact Cache.Key.isCounter_version _
  | update comment => cases h; exact Cache.Key.isCounter_generation
  | delete id => cases h; exact Cache.Key.isCounter_generation
  | deleteByVideo video => cases h; exact Cache.Key.isCounter_version _

/-- What may become of a call with the exchanges `xs`: what it answers, and what it leaves in the
cache. -/
inductive Outcome (w : World) (xs : List Exchange) :
    (op : Operation) → Except Failure op.Answer → Entries → Prop
  /-- A page is answered from the cache. -/
  | hit {video : String} {g n limit offset : Int} {e : Cache.Entry} {text : String}
      {page : List Comment}
      (hg : w.entries.reading w.now Cache.Key.generation = some g)
      (hn : w.entries.reading w.now (Cache.Key.version video) = some n)
      (hlive : w.entries.live? w.now (Cache.Key.page video g n limit offset) = some e)
      (htext : Utf8.decode? e.value = some text) (hpage : Page.decode? text = some page) :
      Outcome w xs (.list video limit offset) (.ok page) w.entries
  /-- The store answers, and nothing is kept. -/
  | through {video : String} {limit offset : Int} {es : Entries} (hes : w.entries.Shrinks es) :
      Outcome w xs (.list video limit offset) (store.effect (.list video limit offset) w).1 es
  /-- The store answers, and its page is kept under the counters that were read. -/
  | kept {video : String} {g n limit offset : Int} {page : List Comment} {es : Entries}
      {expiry : Nat}
      (hg : w.entries.reading w.now Cache.Key.generation = some g)
      (hn : w.entries.reading w.now (Cache.Key.version video) = some n)
      (hpage : (store.effect (.list video limit offset) w).1 = .ok page)
      (hes : w.entries.Shrinks es) (hexpiry : expiry ≤ w.now + lifetime.milliseconds) :
      Outcome w xs (.list video limit offset) (.ok page)
        (es.put (Cache.Key.page video g n limit offset)
          { value := Utf8.encode (Page.encode page), expiry := some expiry })
  /-- A write fails. -/
  | refused {op : Operation} {failure : Failure} (h : (store.effect op w).1 = .error failure) :
      Outcome w xs op (.error failure) w.entries
  /-- A write succeeds and is counted. -/
  | counted {op : Operation} {answer : op.Answer} {counter : String} {n : Int} {es : Entries}
      (h : (store.effect op w).1 = .ok answer) (hcounter : counterOf op = some counter)
      (hinc : w.entries.increment w.now counter = (.ok n, es)) : Outcome w xs op (.ok answer) es
  /-- A write succeeds, and the increment that counts it fails. -/
  | uncounted {op : Operation} {answer : op.Answer} {counter : String}
      (h : (store.effect op w).1 = .ok answer) (hcounter : counterOf op = some counter)
      (hfailed : ∃ x ∈ xs, x.isFailedIncrement = true) : Outcome w xs op (.ok answer) w.entries

/-- What a call does in a world: the store has the effect of the operation, and one of the outcomes
comes about. -/
structure Does (op : Operation) (w : World) (xs : List Exchange)
    (r : Except Failure op.Answer × World) : Prop where
  outcome : Outcome store lifetime w xs op r.1 r.2.entries
  table : r.2.table = (store.effect op w).2
  created : r.2.created = w.created + op.drawn
  now : r.2.now = w.now
  database : r.2.database = w.database

/-- The store's answer to a listing does not depend on what happened to the cache before. -/
theorem inner_list_spec (video : String) (limit offset : Int) {w w' : World}
    (hsame : w.SameStore w') :
    ((store.repository (.list video limit offset)).run World.handler w').1 =
        (store.effect (.list video limit offset) w).1 ∧
      ((store.repository (.list video limit offset)).run World.handler w').2.entries =
        w'.entries ∧
      w.SameRecords ((store.repository (.list video limit offset)).run World.handler w').2 := by
  have hdoes := store.repository_does (.list video limit offset) w'
  have htable := hdoes.table.trans (store.table_effect_list video limit offset w')
  refine ⟨?_, hdoes.sameCache.entries, hsame.toSameRecords.trans ?_⟩
  · rw [hdoes.answer, store.effect_congr _ hsame]
  · exact ⟨hdoes.sameCache.now, htable, hdoes.created, hdoes.sameCache.database⟩

/-- A listing has one of the outcomes, and changes no records. One that fails leaves the cache as it
was, less at most a value that is no page from under its key. -/
theorem listCached_spec (video : String) (limit offset : Int) (w : World) (xs : List Exchange) :
    Outcome store lifetime w xs (.list video limit offset)
        ((listCached store.repository cache.client lifetime video limit offset).run World.handler
          w).1
        ((listCached store.repository cache.client lifetime video limit offset).run World.handler
          w).2.entries ∧
      w.SameRecords ((listCached store.repository cache.client lifetime video limit offset).run
        World.handler w).2 ∧
      ∀ failure, ((listCached store.repository cache.client lifetime video limit offset).run
          World.handler w).1 = .error failure →
        ∃ g n, Discards w.now (Cache.Key.page video g n limit offset) w.entries
          ((listCached store.repository cache.client lifetime video limit offset).run World.handler
            w).2.entries := by
  obtain ⟨hkey, hes₁, hsame₁⟩ := pageKey_spec cache video limit offset w
  rw [listCached, Program.run_bind]
  generalize (pageKey cache.client video limit offset).run World.handler w = r at *
  obtain ⟨key?, w₁⟩ := r
  simp only at hkey hes₁ hsame₁ ⊢
  cases key? with
  | none =>
    -- The counters cannot be read.
    obtain ⟨hanswer, hes, hrecords⟩ := inner_list_spec store video limit offset hsame₁
    simp only
    rw [hanswer, hes, hes₁]
    exact ⟨.through (.refl _), hrecords, fun _ _ => ⟨0, 0, .inl rfl⟩⟩
  | some key =>
    obtain ⟨g, n, hg, hn, rfl⟩ := hkey key rfl
    obtain ⟨hfound, hdiscards, hsame₂⟩ := cachedPage_spec cache video g n limit offset w₁
    rw [Program.run_bind]
    generalize (cachedPage cache.client (Cache.Key.page video g n limit offset)).run World.handler
      w₁ = r at *
    obtain ⟨page?, w₂⟩ := r
    rw [hes₁, hsame₁.now] at hfound hdiscards
    replace hsame₂ : w.SameStore w₂ := hsame₁.trans hsame₂
    cases page? with
    | some page =>
      obtain ⟨hes₂, e, text, hlive, htext, hpage⟩ := hfound page rfl
      simp only [Program.run_pure] at hes₂ ⊢
      rw [hes₂]
      exact ⟨.hit hg hn hlive htext hpage, hsame₂.toSameRecords, fun _ h => (by cases h)⟩
    | none =>
      -- The store is asked; whatever `cachedPage` dropped, the counters still read `g` and `n`.
      obtain ⟨hanswer, hes₃, hrecords⟩ := inner_list_spec store video limit offset hsame₂
      rw [Program.run_bind]
      generalize (store.repository (.list video limit offset)).run World.handler w₂ = r at *
      obtain ⟨answer, w₃⟩ := r
      have hnow : w₃.now = w.now := hrecords.now
      simp only at hanswer hes₃ hrecords hdiscards ⊢
      rw [← hes₃] at hdiscards
      cases answer with
      | error failure =>
        simp only [Program.run_pure]
        rw [hanswer]
        exact ⟨.through hdiscards.shrinks, hrecords, fun _ _ => ⟨g, n, hdiscards⟩⟩
      | ok page =>
        obtain ⟨hstore, hsame₄⟩ := storePage_spec cache lifetime
          (Cache.Key.page video g n limit offset) page w₃
        simp only [Program.run_bind, Program.run_pure]
        generalize (storePage cache.client lifetime (Cache.Key.page video g n limit offset)
          page).run World.handler w₃ = r at *
        replace hrecords := hrecords.trans hsame₄.toSameRecords
        rcases hstore with hes₄ | ⟨expiry, hexpiry, hes₄⟩
        · refine ⟨?_, hrecords, fun _ h => (by cases h)⟩
          rw [hes₄, hanswer]
          exact .through hdiscards.shrinks
        · rw [hes₄]
          rw [hnow] at hexpiry
          exact ⟨.kept hg hn hanswer.symm hdiscards.shrinks hexpiry, hrecords,
            fun _ h => (by cases h)⟩

/-- A write has one of the outcomes, and the store has the effect of the operation. -/
theorem writeThrough_does {op : Operation} {counter : String}
    (hcounter : counterOf op = some counter) (w : World) :
    Does store lifetime op w
      ((writeThrough store.repository cache.client op).exchanges World.handler w)
      ((writeThrough store.repository cache.client op).run World.handler w) := by
  have hdoes := store.repository_does op w
  rw [writeThrough, Program.run_bind, Program.exchanges_bind]
  generalize (store.repository op).exchanges World.handler w = xs
  generalize (store.repository op).run World.handler w = r at hdoes ⊢
  obtain ⟨answer, w₁⟩ := r
  obtain ⟨hanswer, htable, hcreated, hsame⟩ := hdoes
  simp only at hanswer htable hcreated hsame ⊢
  cases answer with
  | error failure =>
    refine ⟨?_, htable, hcreated, hsame.now, hsame.database⟩
    simp only [Program.run_pure]
    rw [hsame.entries]
    exact .refused hanswer.symm
  | ok answer =>
    obtain ⟨hcount, hsame'⟩ := invalidate_spec cache counter w₁
    rw [hsame.entries, hsame.now] at hcount
    simp only [hcounter, Program.run_bind, Program.exchanges_bind, Program.run_pure,
      Program.exchanges_pure, List.append_nil]
    generalize (invalidate cache.client counter).exchanges World.handler w₁ = ys at hcount ⊢
    generalize (invalidate cache.client counter).run World.handler w₁ = r at hcount hsame' ⊢
    obtain ⟨⟨⟩, w₂⟩ := r
    simp only at hcount hsame' ⊢
    refine ⟨?_, hsame'.table.trans htable, hsame'.created.trans hcreated,
      hsame'.now.trans hsame.now, hsame'.database.trans hsame.database⟩
    rcases hcount with ⟨n, hinc⟩ | ⟨hes, x, hx, hfailed⟩
    · exact .counted hanswer.symm hcounter hinc
    · simp only [hes]
      exact .uncounted hanswer.symm hcounter ⟨x, List.mem_append_right xs hx, hfailed⟩

/-- **Every call has one of the outcomes, and the store has the effect of the operation.** -/
theorem cached_does (op : Operation) (w : World) :
    Does store lifetime op w
      ((cached store.repository cache.client lifetime op).exchanges World.handler w)
      ((cached store.repository cache.client lifetime op).run World.handler w) := by
  cases op with
  | list video limit offset =>
    obtain ⟨houtcome, hrecords, -⟩ := listCached_spec cache store lifetime video limit offset w
      ((listCached store.repository cache.client lifetime video limit offset).exchanges
        World.handler w)
    have htable := store.table_effect_list video limit offset w
    exact ⟨houtcome, hrecords.table.trans htable.symm, hrecords.created, hrecords.now,
      hrecords.database⟩
  | create comment => exact writeThrough_does cache store lifetime rfl w
  | update comment => exact writeThrough_does cache store lifetime rfl w
  | delete id => exact writeThrough_does cache store lifetime rfl w
  | deleteByVideo video => exact writeThrough_does cache store lifetime rfl w

end VideoComments.Repository

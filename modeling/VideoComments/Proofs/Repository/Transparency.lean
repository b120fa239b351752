import VideoComments.Proofs.Repository.Session

/-!
# The cache is invisible to clients that wait for each other

What makes it so is that the cache is coherent with the table (`Coherent`): the counters have never
been behind a page, and a page under the numbers that they read as now is what the table holds now.
Every write that changes a listing moves a counter that the listing's key depends on, so that the
pages which it makes stale are out of reach (`Coherent.counted`), and all other changes to the cache
leave coherence alone. Sessions with a cache and without then have the same results and leave the
same rows (`cached_eq_uncached`).
-/

namespace VideoComments.Repository

open Cache (Entries)
open Operation (listing)

variable {cache : CacheKind} {store : StoreKind} {lifetime : Duration}

/-! ## What a write leaves alone -/

/-- **A write that does not count for a video does not change its listings.** -/
theorem listing_apply (op : Operation) (fresh : Uuid) (t : Table) {video : String}
    (hall : counterOf op ≠ some Cache.Key.generation)
    (hone : counterOf op ≠ some (Cache.Key.version video)) (limit offset : Int) :
    listing (op.apply fresh t).2 video limit offset = listing t video limit offset := by
  have hrows : (op.apply fresh t).2.ofVideo video = t.ofVideo video := by
    cases op with
    | list other limit offset => rfl
    | create comment =>
      have hne : video ≠ comment.video := fun h => hone (by rw [h]; rfl)
      exact t.ofVideo_insert_of_ne hne fresh comment.content
    | update comment => exact absurd rfl hall
    | delete id => exact absurd rfl hall
    | deleteByVideo other =>
      have hne : video ≠ other := fun h => hone (by rw [h]; rfl)
      exact t.ofVideo_removeVideo_of_ne hne
  rw [listing, hrows, listing]

/-! ## Coherence -/

/-- No page is ahead of the counters, and a page that is not behind them is up to date. -/
structure Coherent (t : Table) (now : Nat) (es : Entries) : Prop where
  countersLast : es.CountersLast
  pages : ∀ video g n limit offset e,
    es.lookup (Cache.Key.page video g n limit offset) = some e →
      ∃ gNow nNow, es.reading now Cache.Key.generation = some gNow ∧
        es.reading now (Cache.Key.version video) = some nNow ∧ g ≤ gNow ∧ n ≤ nNow ∧
        (g = gNow → n = nNow → ∃ page, listing t video limit offset = .ok page ∧
          e.value = Utf8.encode (Page.encode page))

namespace Coherent

variable {t : Table} {now : Nat} {es : Entries}

theorem of_hasNoPages (hpages : es.HasNoPages) (hlast : es.CountersLast) : Coherent t now es where
  countersLast := hlast
  pages video g n limit offset e he := by
    rw [hpages video g n limit offset] at he
    cases he

/-- Time may pass, and pages may go. -/
theorem mono (h : Coherent t now es) {es' : Entries} (hes : es.Shrinks es') (now' : Nat) :
    Coherent t now' es' := by
  have hlast := h.countersLast.congr fun key hkey => hes.lookup_counter hkey
  refine ⟨hlast, ?_⟩
  have hreading : ∀ key, Cache.Key.IsCounter key → es'.reading now' key = es.reading now key :=
    fun key hkey => (hlast.reading_eq hkey now now').trans (hes.reading_eq hkey now)
  intro video g n limit offset e he
  rw [hreading _ Cache.Key.isCounter_generation, hreading _ (Cache.Key.isCounter_version video)]
  exact h.pages video g n limit offset e (hes.lookup_eq_some he)

/-- A page that the table holds may be kept under the numbers that the counters read as. -/
theorem put (h : Coherent t now es) {video : String} {g n limit offset : Int}
    (hg : es.reading now Cache.Key.generation = some g)
    (hn : es.reading now (Cache.Key.version video) = some n) {page : List Comment}
    (hpage : listing t video limit offset = .ok page) (expiry : Option Nat) :
    Coherent t now (es.put (Cache.Key.page video g n limit offset)
      { value := Utf8.encode (Page.encode page), expiry := expiry }) := by
  have hne : ∀ key, Cache.Key.IsCounter key → key ≠ Cache.Key.page video g n limit offset :=
    fun key hkey heq => Cache.Key.page_ne_counter hkey video g n limit offset heq.symm
  refine ⟨h.countersLast.congr fun key hkey => ?_, ?_⟩
  · rw [Entries.lookup_put, if_neg (hne key hkey)]
  intro video' g' n' limit' offset' e he
  rw [Entries.reading_put_of_ne _ (hne _ Cache.Key.isCounter_generation),
    Entries.reading_put_of_ne _ (hne _ (Cache.Key.isCounter_version video'))]
  rw [Entries.lookup_put] at he
  split at he
  · next hkey =>
    obtain ⟨rfl, rfl, rfl, rfl, rfl⟩ := Cache.Key.page_injective hkey
    cases he
    exact ⟨g', n', hg, hn, le_rfl, le_rfl, fun _ _ => ⟨page, hpage, rfl⟩⟩
  · exact h.pages video' g' n' limit' offset' e he

/-- **A write that is counted puts the pages that it makes stale out of reach.** -/
theorem counted (h : Coherent t now es) {op : Operation} {fresh : Uuid} {counter : String}
    (hcounter : counterOf op = some counter) {k : Int} {es' : Entries}
    (hinc : es.increment now counter = (.ok k, es')) :
    Coherent (op.apply fresh t).2 now es' := by
  refine ⟨h.countersLast.increment hinc, ?_⟩
  have hreads := Entries.reading_increment hinc
  have hread := (Entries.increment_ok hinc).1
  have hother : ∀ key, key ≠ counter → es'.reading now key = es.reading now key :=
    fun key hne => Entries.reading_congr (Entries.lookup_increment hinc hne) now
  intro video g n limit offset e he
  have hne : Cache.Key.page video g n limit offset ≠ counter :=
    Cache.Key.page_ne_counter (isCounter_of_counterOf hcounter) video g n limit offset
  rw [Entries.lookup_increment hinc hne] at he
  obtain ⟨gNow, nNow, hg, hn, hgle, hnle, hfresh⟩ := h.pages video g n limit offset e he
  by_cases hall : counter = Cache.Key.generation
  · -- Every page is behind the counter of all videos now.
    rw [hall] at hread hreads
    have hk : gNow = k - 1 := Option.some.inj (hg.symm.trans hread)
    have hversion := hother (Cache.Key.version video)
      (hall ▸ Cache.Key.version_ne_generation video)
    refine ⟨k, nNow, hreads, hversion.trans hn, by omega, hnle, fun hgk => ?_⟩
    omega
  have hgeneration := hother Cache.Key.generation (Ne.symm hall)
  by_cases hone : counter = Cache.Key.version video
  · -- Every page of this video is behind its own counter now.
    rw [hone] at hread hreads
    have hk : nNow = k - 1 := Option.some.inj (hn.symm.trans hread)
    refine ⟨gNow, k, hgeneration.trans hg, hreads, hgle, by omega, fun _ hnk => ?_⟩
    omega
  · have hversion := hother (Cache.Key.version video) (Ne.symm hone)
    refine ⟨gNow, nNow, hgeneration.trans hg, hversion.trans hn, hgle, hnle, fun hgNow hnNow => ?_⟩
    rw [listing_apply op fresh t (by rw [hcounter]; simpa using hall)
      (by rw [hcounter]; simpa using hone)]
    exact hfresh hgNow hnNow

/-- A page that is found is up to date. -/
theorem listing_of_live (h : Coherent t now es) {video : String} {g n limit offset : Int}
    (hg : es.reading now Cache.Key.generation = some g)
    (hn : es.reading now (Cache.Key.version video) = some n) {e : Cache.Entry}
    (hlive : es.live? now (Cache.Key.page video g n limit offset) = some e) {text : String}
    (htext : Utf8.decode? e.value = some text) {page : List Comment}
    (hpage : Page.decode? text = some page) : listing t video limit offset = .ok page := by
  obtain ⟨gNow, nNow, hgNow, hnNow, -, -, hfresh⟩ :=
    h.pages video g n limit offset e (Entries.live?_eq_some.1 hlive).1
  have hgeq : g = gNow := Option.some.inj (hg.symm.trans hgNow)
  have hneq : n = nNow := Option.some.inj (hn.symm.trans hnNow)
  obtain ⟨page', hlisting, hvalue⟩ := hfresh hgeq hneq
  rw [hvalue, Utf8.decode?_encode] at htext
  cases htext
  rw [Page.decode?_encode] at hpage
  cases hpage
  exact hlisting

end Coherent

/-! ## A call -/

/-- **A call on a coherent cache answers what the store does, and the cache stays coherent.** -/
theorem Coherent.step {w : World} (h : Coherent w.table w.now w.entries) {op : Operation}
    (hfault : op.isListing = true → store.fault w = none) {xs : List Exchange}
    (hxs : ∀ x ∈ xs, x.isFailedIncrement = false) {answer : Except Failure op.Answer} {es : Entries}
    (hout : Outcome store lifetime w xs op answer es) :
    answer = (store.effect op w).1 ∧ Coherent (store.effect op w).2 w.now es := by
  cases hout with
  | hit hg hn hlive htext hpage =>
    refine ⟨?_, ?_⟩
    · rw [StoreKind.effect_of_fault_eq_none (hfault rfl)]
      exact (h.listing_of_live hg hn hlive htext hpage).symm
    · rw [store.table_effect_list]
      exact h
  | through hes =>
    refine ⟨rfl, ?_⟩
    rw [store.table_effect_list]
    exact h.mono hes w.now
  | @kept video g n limit offset page es expiry hg hn hpage hes =>
    refine ⟨hpage.symm, ?_⟩
    rw [store.table_effect_list]
    rw [← hes.reading_eq Cache.Key.isCounter_generation] at hg
    rw [← hes.reading_eq (Cache.Key.isCounter_version video)] at hn
    exact (h.mono hes w.now).put hg hn (StoreKind.listing_of_effect_ok hpage) _
  | refused herror =>
    refine ⟨herror.symm, ?_⟩
    rw [StoreKind.table_of_effect_error herror]
    exact h
  | counted hok hcounter hinc =>
    refine ⟨hok.symm, ?_⟩
    rw [StoreKind.effect_eq_apply_of_ok hok]
    exact h.counted hcounter hinc
  | uncounted hok hcounter hfailed =>
    obtain ⟨x, hx, hfailed⟩ := hfailed
    rw [hxs x hx] at hfailed
    cases hfailed

/-! ## A session -/

/-- A turn leaves the same records with a cache and without. -/
theorem sameRecords_next (cache : CacheKind) (store : StoreKind) (lifetime : Duration)
    {w w' : World} (hsame : w.SameRecords w') (t : Turn) :
    ((cached store.repository cache.client lifetime).next t w).SameRecords
      (store.repository.next t w') := by
  have hdoes := cached_does cache store lifetime t.op (t.start w)
  have hbare := store.repository_does t.op (t.start w')
  have hstart := t.sameStore_start hsame
  have htable := congrArg Prod.snd (store.effect_congr t.op hstart)
  have hcreated := congrArg (· + t.op.drawn) hstart.created
  exact ⟨(hbare.sameCache.now.trans hstart.now).trans hdoes.now.symm,
    (hbare.table.trans htable).trans hdoes.table.symm,
    (hbare.created.trans hcreated).trans hdoes.created.symm,
    (hbare.sameCache.database.trans hstart.database).trans hdoes.database.symm⟩

/-- What one turn does to a coherent cache, and what it answers. -/
theorem Coherent.turn (cache : CacheKind) {w w' : World} (h : Coherent w.table w.now w.entries)
    (hsame : w.SameRecords w') (hup : w.database = .up) {t : Turn}
    (hselect : t.op.isListing = true → t.storeFault = none)
    (hincrement : ∀ x ∈ ((cached store.repository cache.client lifetime).moment t w).exchanges,
      x.isFailedIncrement = false) :
    ((cached store.repository cache.client lifetime).moment t w).result =
        (store.repository.moment t w').result ∧
      Coherent ((cached store.repository cache.client lifetime).next t w).table
        ((cached store.repository cache.client lifetime).next t w).now
        ((cached store.repository cache.client lifetime).next t w).entries := by
  have hdoes := cached_does cache store lifetime t.op (t.start w)
  have hbare := store.repository_does t.op (t.start w')
  have heffect := congrArg Prod.fst (store.effect_congr t.op (t.sameStore_start hsame))
  have hfault : t.op.isListing = true → store.fault (t.start w) = none := fun hlist => by
    rw [store.fault_of_up (show (t.start w).database = .up from hup)]
    exact hselect hlist
  have hstart : Coherent (t.start w).table (t.start w).now (t.start w).entries :=
    h.mono (t.shrinks_start w) (t.start w).now
  obtain ⟨hanswer, hcoherent⟩ := hstart.step hfault hincrement hdoes.outcome
  refine ⟨?_, ?_⟩
  · exact congrArg (Sigma.mk t.op) (hanswer.trans (hbare.answer.trans heffect).symm)
  · rw [next, hdoes.table, hdoes.now]
    exact hcoherent

/-- Two sessions from the same records, one with a cache that is coherent and one without. -/
theorem history_eq_of_coherent {w w' : World} (hsame : w.SameRecords w') (hup : w.database = .up)
    (h : Coherent w.table w.now w.entries) {turns : List Turn}
    (hselect : ∀ t ∈ turns, t.op.isListing = true → t.storeFault = none)
    (hincrement : ∀ m ∈ (cached store.repository cache.client lifetime).history turns w,
      ∀ x ∈ m.exchanges, x.isFailedIncrement = false) :
    ((cached store.repository cache.client lifetime).history turns w).map Moment.result =
        (store.repository.history turns w').map Moment.result ∧
      ((cached store.repository cache.client lifetime).finish turns w).table =
        (store.repository.finish turns w').table := by
  induction turns generalizing w w' with
  | nil => exact ⟨rfl, hsame.table.symm⟩
  | cons t ts ih =>
    rw [history, List.forall_mem_cons] at hincrement
    obtain ⟨hresult, hnext⟩ :=
      h.turn cache hsame hup (hselect t List.mem_cons_self) hincrement.1
    have hup' : ((cached store.repository cache.client lifetime).next t w).database = .up :=
      (cached_does cache store lifetime t.op (t.start w)).database.trans hup
    obtain ⟨hhistory, hfinish⟩ := ih (sameRecords_next cache store lifetime hsame t) hup' hnext
      (fun t' ht' => hselect t' (List.mem_cons_of_mem t ht')) hincrement.2
    refine ⟨?_, hfinish⟩
    rw [history, history, List.map_cons, List.map_cons, hresult, hhistory]

/-- **The cache is invisible to clients that wait for each other.** From a cache without pages whose
counters do not expire, with time passing and pages going at will and with calls to the cache
failing at will, a session has call by call the results that it has without a cache, and leaves the
same rows, as long as no increment and no selection fails. -/
theorem cached_eq_uncached (cache : CacheKind) (store : StoreKind) (lifetime : Duration) (w : World)
    (hup : w.database = .up) (hpages : w.entries.HasNoPages) (hcounters : w.entries.CountersLast)
    (turns : List Turn) (hselect : ∀ t ∈ turns, t.op.isListing = true → t.storeFault = none)
    (hincrement : ∀ m ∈ (cached store.repository cache.client lifetime).history turns w,
      ∀ x ∈ m.exchanges, x.isFailedIncrement = false) :
    ((cached store.repository cache.client lifetime).history turns w).map Moment.result =
        (store.repository.history turns w).map Moment.result ∧
      ((cached store.repository cache.client lifetime).finish turns w).table =
        (store.repository.finish turns w).table :=
  history_eq_of_coherent ⟨rfl, rfl, rfl, rfl⟩ hup (.of_hasNoPages hpages hcounters) hselect
    hincrement

/-- A page is kept and found; a comment is created; the page is read anew, cannot be kept, and is
read anew once more. -/
def listingsAroundWrite : List Turn :=
  [{ op := .list "v" 0 0 }, { op := .list "v" 0 0 },
    { op := .create { video := "v", content := "x" }, wait := 100 },
    { op := .list "v" 0 0, cacheFaults := [none, none, none, some (.cache .notText)] },
    { op := .list "v" 0 0, expired := [⟨"v", 0, 0, 0, 0⟩] }]

theorem cached_eq_uncached_listingsAroundWrite :
    ({} : World).database = .up ∧ ({} : World).entries.HasNoPages ∧
    ({} : World).entries.CountersLast ∧
    (∀ t ∈ listingsAroundWrite, t.op.isListing = true → t.storeFault = none) ∧
    (∀ m ∈ minutely.history listingsAroundWrite {},
      ∀ x ∈ m.exchanges, x.isFailedIncrement = false) ∧
    (minutely.history listingsAroundWrite {}).map Moment.result =
      (StoreKind.database.repository.history listingsAroundWrite {}).map Moment.result ∧
    (minutely.finish listingsAroundWrite {}).table =
      (StoreKind.database.repository.finish listingsAroundWrite {}).table := by
  have hpages : ({} : World).entries.HasNoPages := fun _ _ _ _ _ => rfl
  have hcounters : ({} : World).entries.CountersLast := fun _ _ _ h => by cases h
  have hselect : ∀ t ∈ listingsAroundWrite, t.op.isListing = true → t.storeFault = none := by
    decide
  have hincrement : ∀ m ∈ minutely.history listingsAroundWrite {},
      ∀ x ∈ m.exchanges, x.isFailedIncrement = false := by decide +kernel
  exact ⟨rfl, hpages, hcounters, hselect, hincrement,
    cached_eq_uncached .redis .database (.ofSeconds 60) {} rfl hpages hcounters
      listingsAroundWrite hselect hincrement⟩

end VideoComments.Repository

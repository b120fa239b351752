import VideoComments.Proofs.Repository.Session

/-!
# How old a listing can be

When increments fail, counters no longer tell a page from before a write from one after it. What
bounds the age of a page then is its lifetime alone: a page in the cache is what the store answered
at the moment at which it was put there, and neither hits nor failures nor writes ever move its
expiry (`Timely`). A listing is therefore what the store answered no longer than a lifetime ago
(`listing_no_older_than_lifetime`), whatever fails.
-/

namespace VideoComments.Repository

open Cache (Entries)

variable (cache : CacheKind) (store : StoreKind) (lifetime : Duration)

/-! ## The age of a page -/

/-- The moment is at most a lifetime before a time, and the store answered the page at it. -/
structure Recent (m : Moment) (now : Nat) (video : String) (limit offset : Int)
    (page : List Comment) : Prop where
  past : m.world.now ≤ now
  age : now ≤ m.world.now + lifetime.milliseconds
  answer : (store.effect (.list video limit offset) m.world).1 = .ok page

/-- Every page in the cache was answered by the store at one of the moments, and expires no later
than a lifetime after it. -/
def Timely (ms : List Moment) (now : Nat) (es : Entries) : Prop :=
  ∀ video g n limit offset e, es.lookup (Cache.Key.page video g n limit offset) = some e →
    ∃ m ∈ ms, ∃ page expiry, m.world.now ≤ now ∧
      (store.effect (.list video limit offset) m.world).1 = .ok page ∧
      e = { value := Utf8.encode (Page.encode page), expiry := some expiry } ∧
      expiry ≤ m.world.now + lifetime.milliseconds

variable {cache store lifetime} {ms : List Moment} {now : Nat} {es : Entries}

theorem timely_of_hasNoPages (h : es.HasNoPages) : Timely store lifetime ms now es := by
  intro video g n limit offset e he
  rw [h video g n limit offset] at he
  cases he

namespace Timely

/-- Time may pass, moments may be added, and pages may go. -/
theorem mono (h : Timely store lifetime ms now es) {ms' : List Moment} {now' : Nat} {es' : Entries}
    (hms : ms ⊆ ms') (hnow : now ≤ now') (hes : es.Shrinks es') :
    Timely store lifetime ms' now' es' := by
  intro video g n limit offset e he
  obtain ⟨m, hm, page, expiry, hpast, hanswer, hvalue, hexpiry⟩ :=
    h video g n limit offset e (hes.lookup_eq_some he)
  exact ⟨m, hms hm, page, expiry, hpast.trans hnow, hanswer, hvalue, hexpiry⟩

/-- Counting a write leaves every page as it is. -/
theorem increment (h : Timely store lifetime ms now es) {counter : String}
    (hcounter : Cache.Key.IsCounter counter) {n : Int} {es' : Entries}
    (hinc : es.increment now counter = (.ok n, es')) : Timely store lifetime ms now es' := by
  intro video g n limit offset e he
  rw [Entries.lookup_increment hinc (Cache.Key.page_ne_counter hcounter video g n limit offset)]
    at he
  exact h video g n limit offset e he

/-- A page that the store answered may be kept for a lifetime. -/
theorem put (h : Timely store lifetime ms now es) {m : Moment} (hm : m ∈ ms)
    (hnow : m.world.now = now) {video : String} {g n limit offset : Int} {page : List Comment}
    (hanswer : (store.effect (.list video limit offset) m.world).1 = .ok page) {expiry : Nat}
    (hexpiry : expiry ≤ now + lifetime.milliseconds) :
    Timely store lifetime ms now (es.put (Cache.Key.page video g n limit offset)
      { value := Utf8.encode (Page.encode page), expiry := some expiry }) := by
  intro video' g' n' limit' offset' e he
  rw [Entries.lookup_put] at he
  split at he
  · next hkey =>
    obtain ⟨rfl, rfl, rfl, rfl, rfl⟩ := Cache.Key.page_injective hkey
    cases he
    exact ⟨m, hm, page, expiry, hnow.le, hanswer, rfl, hnow ▸ hexpiry⟩
  · exact h video' g' n' limit' offset' e he

/-- A page that is still there is recent. -/
theorem recent (h : Timely store lifetime ms now es) {video : String} {g n limit offset : Int}
    {e : Cache.Entry} (hlive : es.live? now (Cache.Key.page video g n limit offset) = some e)
    {text : String} (htext : Utf8.decode? e.value = some text) {page : List Comment}
    (hpage : Page.decode? text = some page) :
    ∃ m ∈ ms, Recent store lifetime m now video limit offset page := by
  obtain ⟨he, hnot⟩ := Entries.live?_eq_some.1 hlive
  obtain ⟨m, hm, page', expiry, hpast, hanswer, rfl, hexpiry⟩ := h video g n limit offset e he
  rw [Utf8.decode?_encode] at htext
  cases htext
  rw [Page.decode?_encode] at hpage
  cases hpage
  have hbefore : now < expiry := by simpa [Cache.Entry.isLive] using hnot
  exact ⟨m, hm, hpast, by omega, hanswer⟩

/-! ## A call -/

variable {m : Moment} {xs : List Exchange} {op : Operation} {answer : Except Failure op.Answer}

/-- **Whatever becomes of a call, the pages in the cache stay timely.** -/
theorem step (h : Timely store lifetime ms m.world.now m.world.entries) (hm : m ∈ ms)
    (hout : Outcome store lifetime m.world xs op answer es) :
    Timely store lifetime ms m.world.now es := by
  cases hout with
  | hit => exact h
  | through hes => exact h.mono (List.Subset.refl ms) le_rfl hes
  | kept hg hn hpage hes hexpiry =>
    exact (h.mono (List.Subset.refl ms) le_rfl hes).put hm rfl hpage hexpiry
  | refused => exact h
  | counted hanswer hcounter hinc => exact h.increment (isCounter_of_counterOf hcounter) hinc
  | uncounted => exact h

/-- **A listing that succeeds is recent.** -/
theorem recent_of_outcome (h : Timely store lifetime ms m.world.now m.world.entries) (hm : m ∈ ms)
    {video : String} {limit offset : Int} {answer : Except Failure (List Comment)}
    {page : List Comment} (hanswer : answer = .ok page)
    (hout : Outcome store lifetime m.world xs (.list video limit offset) answer es) :
    ∃ m' ∈ ms, Recent store lifetime m' m.world.now video limit offset page := by
  cases hout with
  | hit hg hn hlive htext hpage =>
    cases hanswer
    exact h.recent hlive htext hpage
  | through hes => exact ⟨m, hm, le_rfl, Nat.le_add_right _ _, hanswer⟩
  | kept hg hn hpage hes hexpiry =>
    cases hanswer
    exact ⟨m, hm, le_rfl, Nat.le_add_right _ _, hpage⟩
  | refused => cases hanswer
  | counted hok hcounter => cases hcounter
  | uncounted hok hcounter => cases hcounter

end Timely

/-! ## A session -/

variable (cache) in
/-- The pages that are there when a call is made. -/
theorem Timely.start {w : World} (h : Timely store lifetime ms w.now w.entries) (t : Turn) :
    Timely store lifetime (ms ++ [(cached store.repository cache.client lifetime).moment t w])
      (t.start w).now (t.start w).entries :=
  h.mono (List.subset_append_left ms _) (Nat.le_add_right w.now t.wait) (t.shrinks_start w)

/-- A turn keeps the pages timely. -/
theorem Timely.next {w : World} (h : Timely store lifetime ms w.now w.entries) (t : Turn) :
    Timely store lifetime (ms ++ [(cached store.repository cache.client lifetime).moment t w])
      ((cached store.repository cache.client lifetime).next t w).now
      ((cached store.repository cache.client lifetime).next t w).entries := by
  have hdoes := cached_does cache store lifetime t.op (t.start w)
  have hnow : ((cached store.repository cache.client lifetime).next t w).now = (t.start w).now :=
    hdoes.now
  rw [hnow]
  exact (h.start cache t).step (List.mem_append_right ms (List.mem_singleton_self _)) hdoes.outcome

/-- A listing is recent at its own moment. -/
theorem Timely.recent_moment {w : World} (h : Timely store lifetime ms w.now w.entries) (t : Turn)
    {video : String} {limit offset : Int} {page : List Comment}
    (hresult : ((cached store.repository cache.client lifetime).moment t w).result =
      ⟨.list video limit offset, .ok page⟩) :
    ∃ m ∈ ms ++ [(cached store.repository cache.client lifetime).moment t w],
      Recent store lifetime m (t.start w).now video limit offset page := by
  have hdoes := cached_does cache store lifetime t.op (t.start w)
  have hstart := h.start cache t
  obtain ⟨op, wait, expired, storeFault, cacheFaults⟩ := t
  obtain ⟨rfl, hanswer⟩ := Sigma.mk.inj hresult
  exact hstart.recent_of_outcome (List.mem_append_right ms (List.mem_singleton_self _))
    (eq_of_heq hanswer) hdoes.outcome

/-- A listing is recent wherever it stands in a session, `ms` being the moments before it. -/
theorem exists_recent_of_history {w : World} (h : Timely store lifetime ms w.now w.entries)
    {turns : List Turn} {before after : List Moment} {m : Moment}
    (hhistory : (cached store.repository cache.client lifetime).history turns w =
      before ++ m :: after)
    {video : String} {limit offset : Int} {page : List Comment}
    (hresult : m.result = ⟨.list video limit offset, .ok page⟩) :
    ∃ m' ∈ ms ++ (before ++ [m]), Recent store lifetime m' m.world.now video limit offset page := by
  induction turns generalizing ms w before with
  | nil => simp [history] at hhistory
  | cons t ts ih =>
    rw [history] at hhistory
    cases before with
    | nil =>
      obtain ⟨rfl, -⟩ := List.cons.inj hhistory
      exact h.recent_moment t hresult
    | cons m₀ before =>
      obtain ⟨rfl, hrest⟩ := List.cons.inj hhistory
      obtain ⟨m', hm', hrecent⟩ := ih (h.next t) hrest
      rw [List.append_assoc] at hm'
      exact ⟨m', hm', hrecent⟩

/-- **No listing is older than a lifetime.** From a cache without pages, with time passing and pages
going at will and with calls to the store and to the cache failing at will, increments included,
every listing that succeeds is what the store itself answers in the world of the same call or of an
earlier one, at most a lifetime before. -/
theorem listing_no_older_than_lifetime (cache : CacheKind) (store : StoreKind) (lifetime : Duration)
    (w : World) (hpages : w.entries.HasNoPages) (turns : List Turn) {before after : List Moment}
    {m : Moment}
    (hhistory : (cached store.repository cache.client lifetime).history turns w =
      before ++ m :: after)
    {video : String} {limit offset : Int} {page : List Comment}
    (hresult : m.result = ⟨.list video limit offset, .ok page⟩) :
    ∃ m' ∈ before ++ [m], m'.world.now ≤ m.world.now ∧
      m.world.now ≤ m'.world.now + lifetime.milliseconds ∧
      ((store.repository (.list video limit offset)).run World.handler m'.world).1 = .ok page := by
  have htimely : Timely store lifetime [] w.now w.entries := timely_of_hasNoPages hpages
  obtain ⟨m', hm', hrecent⟩ := exists_recent_of_history htimely hhistory hresult
  refine ⟨m', hm', hrecent.past, hrecent.age, ?_⟩
  rw [(store.repository_does (.list video limit offset) m'.world).answer]
  exact hrecent.answer

/-- A listing, a write whose increment fails, and the listing again. -/
def uncountedWrite : List Turn :=
  [{ op := .list "v" 0 0 },
    { op := .create { video := "v", content := "x" }, wait := 20000,
      cacheFaults := [some (.cache .notText)] },
    { op := .list "v" 0 0, wait := 30000 }]

/-- The last listing lacks the comment that is there, and is not older than a minute. -/
theorem stale_listing_within_minute :
    ({} : World).entries.HasNoPages ∧ ∃ before m after,
      minutely.history uncountedWrite {} = before ++ m :: after ∧
      m.result = ⟨.list "v" 0 0, .ok []⟩ ∧ m.world.table.rows.length = 1 ∧
      ∃ m' ∈ before ++ [m], m'.world.now ≤ m.world.now ∧
        m.world.now ≤ m'.world.now + (Duration.ofSeconds 60).milliseconds ∧
        ((StoreKind.database.repository (.list "v" 0 0)).run World.handler m'.world).1 =
          .ok [] := by
  have hpages : ({} : World).entries.HasNoPages := fun _ _ _ _ _ => rfl
  obtain ⟨m₁, m₂, m₃, hhistory⟩ : ∃ m₁ m₂ m₃, minutely.history uncountedWrite {} = [m₁, m₂, m₃] :=
    ⟨_, _, _, rfl⟩
  have hresult : (minutely.history uncountedWrite {}).map Moment.result =
      [⟨.list "v" 0 0, .ok []⟩, ⟨.create { video := "v", content := "x" }, .ok (.numbered 1)⟩,
        ⟨.list "v" 0 0, .ok []⟩] := by decide +kernel
  have hrows : (minutely.history uncountedWrite {}).map (fun m => m.world.table.rows.length) =
      [0, 0, 1] := by decide +kernel
  rw [hhistory] at hresult hrows
  simp only [List.map_cons, List.cons.injEq] at hresult hrows
  have hsplit : minutely.history uncountedWrite {} = [m₁, m₂] ++ m₃ :: [] := hhistory
  exact ⟨hpages, [m₁, m₂], m₃, [], hhistory, hresult.2.2.1, hrows.2.2.1,
    listing_no_older_than_lifetime .redis .database (.ofSeconds 60) {} hpages uncountedWrite hsplit
      hresult.2.2.1⟩

end VideoComments.Repository

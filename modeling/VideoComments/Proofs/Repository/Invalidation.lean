import VideoComments.Proofs.Repository.Warmth

/-!
# Invalidation is exact

A write makes cold the pages that depend on the counter it adds one to, and no others; a listing
makes its own page warm, and no other (`invalidation_exact`). The reasons are two.

* Keys do not collide, whatever the names of the videos hold: what is put under a key is found under
  that key alone.
* No page is ahead of the counters: the numbers in its name are no larger than what they read as
  (`Orderly`). So nothing is there yet under the keys that an increment makes current, and no page
  from before it comes back.

The second holds of an empty cache, and every call on a cache that works keeps it
(`Leaves.orderly`), so that it holds in every world that calls one after another can lead to
(`Reached.orderly`).
-/

namespace VideoComments

/-! ## Counters and pages in order -/

namespace Cache.Entries

/-- A counter that is there holds an integer as it is written, and does not expire. -/
def HoldsCounters (es : Entries) : Prop :=
  ∀ key, Key.IsCounter key → es.lookup key = none ∨ ∃ i, Decimal.fitsInt64 i = true ∧
    es.lookup key = some { value := Utf8.encode (Decimal.ofInt i) }

/-- At no time are the counters below the numbers in the name of a page. -/
def HasReached (es : Entries) (p : PageName) : Prop :=
  ∀ now, (∀ g, es.reading now Key.generation = some g → p.generation ≤ g) ∧
    ∀ n, es.reading now (Key.version p.video) = some n → p.version ≤ n

/-- No page is there whose name holds, for a counter, a larger number than this. -/
def NoneAhead (es : Entries) (key : String) (i : Int) : Prop :=
  ∀ p : PageName, es.lookup p.key ≠ none →
    (key = Key.generation → p.generation ≤ i) ∧ (key = Key.version p.video → p.version ≤ i)

/-- The counters hold integers, and no page is ahead of them. -/
structure Orderly (es : Entries) : Prop where
  counters : es.HoldsCounters
  pages : ∀ p : PageName, es.lookup p.key ≠ none → es.HasReached p

section

variable {es es' : Entries} {now : Nat} {key : String} {n : Int}

theorem HoldsCounters.countersLast (h : es.HoldsCounters) : es.CountersLast := by
  intro key hkey e he
  rcases h key hkey with hnone | ⟨i, -, hsome⟩
  · rw [hnone] at he
    cases he
  · rw [hsome] at he
    cases he
    rfl

theorem HoldsCounters.congr (h : es.HoldsCounters)
    (heq : ∀ key, Key.IsCounter key → es'.lookup key = es.lookup key) : es'.HoldsCounters := by
  intro key hkey
  rw [heq key hkey]
  exact h key hkey

theorem HoldsCounters.exists_counter (h : es.HoldsCounters) (hkey : Key.IsCounter key) (now : Nat) :
    ∃ i, Decimal.fitsInt64 i = true ∧ es.counter now key = .ok i := by
  rcases h key hkey with hnone | ⟨i, hfits, hsome⟩
  · refine ⟨0, by decide, ?_⟩
    rw [counter, live?, hnone]
    rfl
  · refine ⟨i, hfits, ?_⟩
    have hlive := live?_eq_some.2 ⟨hsome, Entry.isLive_of_expiry_eq_none rfl now⟩
    rw [counter, hlive]
    simp [Utf8.decode?_encode, Decimal.ofInt, Decimal.canonical?_signedDigits hfits]

/-- A counter below the top of its range can be incremented. -/
theorem HoldsCounters.exists_increment (h : es.HoldsCounters) (hkey : Key.IsCounter key)
    (hroom : ∀ i, es.reading now key = some i → i < Int64.maxValue.toInt) :
    ∃ n es', es.increment now key = (.ok n, es') := by
  obtain ⟨i, hfits, hcounter⟩ := h.exists_counter hkey now
  have htop := hroom i (reading_of_counter hcounter)
  have hnext : Decimal.fitsInt64 (i + 1) = true := by
    simp only [Decimal.fitsInt64, decide_eq_true_eq] at hfits ⊢
    omega
  rw [increment, hcounter]
  simp only [hnext, if_true]
  exact ⟨_, _, rfl⟩

theorem HoldsCounters.increment (h : es.HoldsCounters)
    (hinc : es.increment now key = (.ok n, es')) : es'.HoldsCounters := by
  obtain ⟨-, hfits, hes⟩ := increment_ok hinc
  intro other hother
  by_cases heq : other = key
  · refine .inr ⟨n, hfits, ?_⟩
    have hexpiry : (es.live? now key).bind Entry.expiry = none := by
      refine Option.bind_eq_none_iff.2 fun e he => ?_
      exact h.countersLast key (heq ▸ hother) e (live?_eq_some.1 he).1
    rw [hes, lookup_put, if_pos heq, incremented, hexpiry]
  · rw [lookup_increment hinc heq]
    exact h other hother

/-- An increment takes no counter down, at no time. -/
theorem HoldsCounters.reading_le_increment (h : es.HoldsCounters) (hkey : Key.IsCounter key)
    (hinc : es.increment now key = (.ok n, es')) {other : String} (hother : Key.IsCounter other)
    {now' : Nat} {j : Int} (hj : es'.reading now' other = some j) :
    ∃ i ≤ j, es.reading now' other = some i := by
  by_cases heq : other = key
  · subst heq
    rw [(h.increment hinc).countersLast.reading_eq hother now now', reading_increment hinc] at hj
    cases hj
    refine ⟨n - 1, by omega, ?_⟩
    rw [h.countersLast.reading_eq hother now now']
    exact (increment_ok hinc).1
  · rw [reading_congr (lookup_increment hinc heq)] at hj
    exact ⟨j, le_rfl, hj⟩

end

namespace Orderly

variable {es es' : Entries} {now : Nat}

theorem of_empty (hpages : es.HasNoPages) (hcounters : es.HasNoCounters) : es.Orderly where
  counters key hkey := .inl (hcounters key hkey)
  pages p hp := (hp (hpages p.video p.generation p.version p.limit p.offset)).elim

/-- Where the counters stay as they are, pages that they have reached may come, and pages may go. -/
theorem of_lookup (h : es.Orderly)
    (hcounters : ∀ key, Key.IsCounter key → es'.lookup key = es.lookup key)
    (hpages : ∀ p : PageName, es'.lookup p.key ≠ none → es.lookup p.key ≠ none ∨ es.HasReached p) :
    es'.Orderly := by
  refine ⟨h.counters.congr hcounters, fun p hp now => ?_⟩
  have hreached : es.HasReached p := (hpages p hp).elim (h.pages p) id
  rw [reading_congr (hcounters _ Key.isCounter_generation),
    reading_congr (hcounters _ (Key.isCounter_version p.video))]
  exact hreached now

theorem shrinks (h : es.Orderly) (hes : es.Shrinks es') : es'.Orderly := by
  refine h.of_lookup (fun _ hkey => hes.lookup_counter hkey) fun p hp => .inl ?_
  rcases hes p.key with heq | ⟨-, hnone⟩
  · rwa [← heq]
  · exact (hp hnone).elim

theorem increment (h : es.Orderly) {key : String} (hkey : Key.IsCounter key) {n : Int}
    (hinc : es.increment now key = (.ok n, es')) : es'.Orderly := by
  refine ⟨h.counters.increment hinc, fun p hp now' => ?_⟩
  rw [lookup_increment hinc (p.key_ne_counter hkey)] at hp
  obtain ⟨hg, hn⟩ := h.pages p hp now'
  refine ⟨fun g hread => ?_, fun v hread => ?_⟩
  · obtain ⟨g', hle, hread'⟩ :=
      h.counters.reading_le_increment hkey hinc Key.isCounter_generation hread
    exact (hg g' hread').trans hle
  · obtain ⟨v', hle, hread'⟩ :=
      h.counters.reading_le_increment hkey hinc (Key.isCounter_version p.video) hread
    exact (hn v' hread').trans hle

/-- The counters have reached the numbers that they read as. -/
theorem hasReached (h : es.Orderly) {p : PageName}
    (hg : es.reading now Key.generation = some p.generation)
    (hn : es.reading now (Key.version p.video) = some p.version) : es.HasReached p := by
  have hlast := h.counters.countersLast
  intro now'
  rw [hlast.reading_eq Key.isCounter_generation now now', hg,
    hlast.reading_eq (Key.isCounter_version p.video) now now', hn]
  exact ⟨fun g hg => (Option.some.inj hg).le, fun n hn => (Option.some.inj hn).le⟩

end Orderly

/-! ## What is found after a change -/

section

variable {es es' : Entries} {now : Nat} {video : String} {limit offset : Int}

/-- A listing finds the same if it looks under the same key, and finds the same there. -/
theorem found?_congr
    (hg : es'.reading now Key.generation = es.reading now Key.generation)
    (hn : es'.reading now (Key.version video) = es.reading now (Key.version video))
    (hpage : ∀ g n, es.pageKey? now video limit offset = some (Key.page video g n limit offset) →
      es'.page? now (Key.page video g n limit offset) =
        es.page? now (Key.page video g n limit offset)) :
    es'.found? now video limit offset = es.found? now video limit offset := by
  have hkey : es'.pageKey? now video limit offset = es.pageKey? now video limit offset := by
    rw [pageKey?, pageKey?, hg, hn]
  rw [found?, found?, hkey]
  refine Option.bind_congr fun key hsome => ?_
  obtain ⟨g, n, -, -, rfl⟩ := pageKey?_eq_some hsome
  exact hpage g n hsome

variable {key : String} {k : Int}

/-- **After an increment no page is found that depends on the counter**, if none was ahead of it. -/
theorem NoneAhead.found?_increment (h : es.NoneAhead key (k - 1)) (hkey : Key.IsCounter key)
    (hinc : es.increment now key = (.ok k, es'))
    (hdepends : key = Key.generation ∨ key = Key.version video) :
    es'.found? now video limit offset = none := by
  refine Option.eq_none_iff_forall_ne_some.2 fun page hfound => ?_
  obtain ⟨pageKey, hpageKey, hpage⟩ := Option.bind_eq_some_iff.1 hfound
  obtain ⟨g, n, hg, hn, rfl⟩ := pageKey?_eq_some hpageKey
  -- The page was there before, so the counter had reached its number in the page's name.
  have hlookup : es.lookup (Key.page video g n limit offset) ≠ none := by
    rw [← lookup_increment hinc (Key.page_ne_counter hkey video g n limit offset)]
    intro hnone
    rw [page?, live?, hnone] at hpage
    cases hpage
  obtain ⟨hgle, hnle⟩ := h ⟨video, g, n, limit, offset⟩ hlookup
  have hafter := reading_increment hinc
  rcases hdepends with rfl | rfl
  · have hgk : g = k := Option.some.inj (hg.symm.trans hafter)
    have hle := hgle rfl
    simp only at hle
    omega
  · have hnk : n = k := Option.some.inj (hn.symm.trans hafter)
    have hle := hnle rfl
    simp only at hle
    omega

/-- Where pages and counters are in order, no page is ahead of what a counter reads as. -/
theorem Orderly.noneAhead (h : es.Orderly) (hread : es.reading now key = some k) :
    es.NoneAhead key k := by
  intro p hp
  obtain ⟨hg, hn⟩ := h.pages p hp now
  exact ⟨fun hkey => hg k (hkey ▸ hread), fun hkey => hn k (hkey ▸ hread)⟩

/-- The pages that do not depend on it are found as before. -/
theorem found?_increment_of_ne (hkey : Key.IsCounter key)
    (hinc : es.increment now key = (.ok k, es')) (hgeneration : Key.generation ≠ key)
    (hversion : Key.version video ≠ key) :
    es'.found? now video limit offset = es.found? now video limit offset := by
  refine found?_congr (reading_congr (lookup_increment hinc hgeneration) now)
    (reading_congr (lookup_increment hinc hversion) now) fun g n _ => page?_congr ?_
  exact live?_congr
    (lookup_increment hinc (Key.page_ne_counter hkey video g n limit offset)) now

end

end Cache.Entries

namespace Repository

open Cache (Entries PageName)

/-! ## One call -/

/-- Which pages are warm after a call, in terms of which were warm before it. -/
def WarmAfter (warm : String → Int → Int → Prop) :
    (op : Operation) → Except Failure op.Answer → String → Int → Int → Prop
  | _, .error _, video, limit, offset => warm video limit offset
  | .list video' limit' offset', .ok _, video, limit, offset =>
    warm video limit offset ∨ video = video' ∧ limit = limit' ∧ offset = offset'
  | .create comment, .ok _, video, limit, offset =>
    warm video limit offset ∧ video ≠ comment.video
  | .deleteByVideo video', .ok _, video, limit, offset =>
    warm video limit offset ∧ video ≠ video'
  | .update _, .ok _, _, _, _ => False
  | .delete _, .ok _, _, _, _ => False

section

variable {now : Nat} {es es' : Entries} {op : Operation} {r : Except Failure op.Answer}

/-- **A call on a cache that works leaves it in order.** -/
theorem Leaves.orderly (hleaves : Leaves now es op r es') (h : es.Orderly) : es'.Orderly := by
  cases hleaves with
  | hit | through | refused | uncounted => exact h
  | @kept video key limit offset page expiry _ hkey hmiss hexpiry hes =>
    obtain ⟨g, n, hg, hn, rfl⟩ := Entries.pageKey?_eq_some hkey
    refine h.of_lookup (fun counter hcounter => ?_) fun p hp => ?_
    · rw [hes, if_neg (Cache.Key.page_ne_counter hcounter video g n limit offset).symm]
    · by_cases hp' : p.key = Cache.Key.page video g n limit offset
      · obtain rfl : p = ⟨video, g, n, limit, offset⟩ := PageName.key_injective hp'
        exact .inr (h.hasReached hg hn)
      · rw [hes, if_neg hp'] at hp
        exact .inl hp
  | missed failure hkey hmiss hes =>
    obtain ⟨g, n, -, -, rfl⟩ := Entries.pageKey?_eq_some hkey
    rcases hes with rfl | rfl
    · exact h
    · exact h.shrinks (Entries.shrinks_erase_page es _ g n _ _)
  | counted hcounter hinc => exact h.increment (isCounter_of_counterOf hcounter) hinc

/-- After a listing has kept its page, that page is found, and the others are found as before. -/
theorem found?_kept_iff {video key : String} {limit offset : Int} {page : List Comment}
    {expiry : Nat} (hkey : es.pageKey? now video limit offset = some key) (hexpiry : now < expiry)
    (hes : ∀ key', es'.lookup key' = if key' = key then
      some { value := Utf8.encode (Page.encode page), expiry := some expiry }
      else es.lookup key') (video' : String) (limit' offset' : Int) :
    (∃ page, es'.found? now video' limit' offset' = some page) ↔
      (∃ page, es.found? now video' limit' offset' = some page) ∨
        video' = video ∧ limit' = limit ∧ offset' = offset := by
  obtain ⟨g, n, hg, hn, rfl⟩ := Entries.pageKey?_eq_some hkey
  have hreading : ∀ counter, Cache.Key.IsCounter counter →
      es'.reading now counter = es.reading now counter := fun counter hcounter => by
    refine Entries.reading_congr ?_ now
    rw [hes, if_neg (Cache.Key.page_ne_counter hcounter video g n limit offset).symm]
  by_cases hsame : video' = video ∧ limit' = limit ∧ offset' = offset
  · obtain ⟨rfl, rfl, rfl⟩ := hsame
    refine iff_of_true ⟨page, ?_⟩ (.inr ⟨rfl, rfl, rfl⟩)
    have hkey' := Entries.pageKey?_of_reading
      ((hreading _ Cache.Key.isCounter_generation).trans hg)
      ((hreading _ (Cache.Key.isCounter_version video')).trans hn) limit' offset'
    rw [Entries.found?_of_pageKey? hkey']
    exact Entries.page?_of_lookup (by rw [hes, if_pos rfl]) hexpiry
  · -- Keys do not collide: this page is not under the key that was set.
    rw [or_iff_left hsame, Entries.found?_congr (hreading _ Cache.Key.isCounter_generation)
      (hreading _ (Cache.Key.isCounter_version video')) fun g' n' _ => Entries.page?_congr ?_]
    refine Entries.live?_congr ?_ now
    rw [hes, if_neg fun heq => ?_]
    obtain ⟨hvideo, -, -, hlimit, hoffset⟩ := Cache.Key.page_injective heq
    exact hsame ⟨hvideo, hlimit, hoffset⟩

/-- After a listing that failed, pages are found as before. -/
theorem found?_missed {video key : String} {limit offset : Int}
    (hkey : es.pageKey? now video limit offset = some key) (hmiss : es.page? now key = none)
    (hes : es' = es ∨ es' = es.erase key) (video' : String) (limit' offset' : Int) :
    es'.found? now video' limit' offset' = es.found? now video' limit' offset' := by
  obtain ⟨g, n, -, -, rfl⟩ := Entries.pageKey?_eq_some hkey
  rcases hes with rfl | rfl
  · rfl
  have hshrinks := Entries.shrinks_erase_page es video g n limit offset
  refine Entries.found?_congr (hshrinks.reading_eq Cache.Key.isCounter_generation now)
    (hshrinks.reading_eq (Cache.Key.isCounter_version video') now) fun g' n' _ => ?_
  by_cases heq : Cache.Key.page video' g' n' limit' offset' = Cache.Key.page video g n limit offset
  · rw [heq, hmiss, Entries.page?, Entries.live?, Entries.lookup_erase, if_pos rfl]
    rfl
  · refine Entries.page?_congr (Entries.live?_congr ?_ now)
    rw [Entries.lookup_erase, if_neg heq]

/-- After a write to a video has been counted, the pages of the others are found as before. -/
theorem found?_version_iff (h : es.Orderly) {video : String} {k : Int}
    (hinc : es.increment now (Cache.Key.version video) = (.ok k, es')) (video' : String)
    (limit' offset' : Int) :
    (∃ page, es'.found? now video' limit' offset' = some page) ↔
      (∃ page, es.found? now video' limit' offset' = some page) ∧ video' ≠ video := by
  have hkey := Cache.Key.isCounter_version video
  by_cases hsame : video' = video
  · subst hsame
    rw [(h.noneAhead (Entries.increment_ok hinc).1).found?_increment hkey hinc (.inr rfl)]
    exact iff_of_false (fun ⟨_, hpage⟩ => (by cases hpage)) fun hne => hne.2 rfl
  · have hversion : Cache.Key.version video' ≠ Cache.Key.version video :=
      fun heq => hsame (Cache.Key.version_injective heq)
    rw [Entries.found?_increment_of_ne hkey hinc (Cache.Key.version_ne_generation video).symm
      hversion]
    exact (and_iff_left hsame).symm

/-- After a write to a single comment has been counted, no page is found. -/
theorem not_found?_generation (h : es.Orderly) {k : Int}
    (hinc : es.increment now Cache.Key.generation = (.ok k, es')) (video' : String)
    (limit' offset' : Int) : ¬ ∃ page, es'.found? now video' limit' offset' = some page := by
  rintro ⟨page, hpage⟩
  rw [(h.noneAhead (Entries.increment_ok hinc).1).found?_increment
    Cache.Key.isCounter_generation hinc (.inl rfl)] at hpage
  cases hpage

/-- **What is found after a call on a cache in order**, as long as its counter can go up. -/
theorem Leaves.found?_iff (hleaves : Leaves now es op r es') (h : es.Orderly)
    (hroom : ∀ counter, counterOf op = some counter →
      ∀ i, es.reading now counter = some i → i < Int64.maxValue.toInt)
    (video' : String) (limit' offset' : Int) :
    (∃ page, es'.found? now video' limit' offset' = some page) ↔
      WarmAfter (fun video limit offset => ∃ page, es.found? now video limit offset = some page)
        op r video' limit' offset' := by
  cases hleaves with
  | @hit video limit offset page hfound =>
    refine (or_iff_left_of_imp ?_).symm
    rintro ⟨rfl, rfl, rfl⟩
    exact ⟨page, hfound⟩
  | kept hkey hmiss hexpiry hes => exact found?_kept_iff hkey hexpiry hes video' limit' offset'
  | missed failure hkey hmiss hes =>
    rw [found?_missed hkey hmiss hes]
    exact Iff.rfl
  | @through video limit offset hkey answer =>
    -- In order, counters read as integers.
    obtain ⟨g, -, hg⟩ := h.counters.exists_counter Cache.Key.isCounter_generation now
    obtain ⟨n, -, hn⟩ := h.counters.exists_counter (Cache.Key.isCounter_version video) now
    rw [Entries.pageKey?_of_reading (Entries.reading_of_counter hg) (Entries.reading_of_counter hn)]
      at hkey
    cases hkey
  | refused hcounter failure => cases op <;> exact Iff.rfl
  | @counted _ answer counter k _ hcounter hinc =>
    cases op with
    | list video limit offset => cases hcounter
    | create comment =>
      cases hcounter
      exact found?_version_iff h hinc video' limit' offset'
    | update comment =>
      cases hcounter
      exact iff_of_false (not_found?_generation h hinc video' limit' offset') not_false
    | delete id =>
      cases hcounter
      exact iff_of_false (not_found?_generation h hinc video' limit' offset') not_false
    | deleteByVideo video =>
      cases hcounter
      exact found?_version_iff h hinc video' limit' offset'
  | uncounted hcounter hinc =>
    obtain ⟨k, es'', hsome⟩ := h.counters.exists_increment (isCounter_of_counterOf hcounter)
      (hroom _ hcounter)
    rw [hsome] at hinc
    cases hinc

end

/-! ## Calls one after another -/

/-- The worlds that calls one after another lead to from an empty cache that works and goes on
working. Between the calls time may pass, pages may go from the cache, and anything may happen to
the store. -/
inductive Reached (inner : Repository) (cache : CacheKind) (lifetime : Duration) : World → Prop
  | empty {w : World} (hpages : w.entries.HasNoPages) (hcounters : w.entries.HasNoCounters)
      (hworks : w.CacheWorks cache) : Reached inner cache lifetime w
  | call {w : World} (h : Reached inner cache lifetime w) (op : Operation) :
      Reached inner cache lifetime ((cached inner cache.client lifetime op).run World.handler w).2
  | between {w w' : World} (h : Reached inner cache lifetime w)
      (hes : w.entries.Shrinks w'.entries) (hworks : w'.CacheWorks cache) :
      Reached inner cache lifetime w'

section

variable {inner : Repository} {cache : CacheKind} {lifetime : Duration} {w : World}

theorem Reached.cacheWorks (h : Reached inner cache lifetime w) : w.CacheWorks cache := by
  induction h with
  | empty _ _ hworks => exact hworks
  | call _ op ih => exact ih.run _
  | between _ _ hworks => exact hworks

/-- **The counters and pages are in order wherever calls lead.** -/
theorem Reached.orderly (h : Reached inner cache lifetime w) (hinner : inner.SparesCache)
    (haccepts : cache.Accepts lifetime) : w.entries.Orderly := by
  induction h with
  | empty hpages hcounters _ => exact .of_empty hpages hcounters
  | call h op ih => exact (cached_leaves hinner haccepts h.cacheWorks op).orderly ih
  | between _ hes _ ih => exact ih.shrinks hes

/-- **Invalidation is exact.** Wherever calls one after another lead from an empty cache that works
and accepts the lifetime, as long as counters are below the top of their range: a write that
succeeds makes cold the pages of its video, or all pages if it names a comment, and no others; a
listing that succeeds makes its own page warm, if it was cold, and no other; and a call that fails
makes no page warm or cold. -/
theorem invalidation_exact (hinner : inner.SparesCache) (haccepts : cache.Accepts lifetime)
    (hreached : Reached inner cache lifetime w) (op : Operation)
    (hroom : ∀ counter, counterOf op = some counter →
      ∀ i, w.entries.reading w.now counter = some i → i < Int64.maxValue.toInt)
    (video : String) (limit offset : Int) :
    IsWarm inner cache lifetime
        ((cached inner cache.client lifetime op).run World.handler w).2 video limit offset ↔
      WarmAfter (IsWarm inner cache lifetime w) op
        ((cached inner cache.client lifetime op).run World.handler w).1 video limit offset := by
  have hworks := hreached.cacheWorks
  have hleaves := cached_leaves hinner haccepts hworks op
  have hwarm : IsWarm inner cache lifetime w = fun video limit offset =>
      ∃ page, w.entries.found? w.now video limit offset = some page := by
    funext video limit offset
    exact propext (isWarm_iff hworks inner lifetime video limit offset)
  rw [hwarm, isWarm_iff (hworks.run _), (World.run_leaves _ w).1]
  exact hleaves.found?_iff (hreached.orderly hinner haccepts) hroom video limit offset

end

/-- Pages of two videos have been listed, one of which has a name that starts with the other's. -/
def prefixListed : World :=
  ((minutely (.list "v:version" 10 0)).run World.handler
    ((minutely (.list "v" 10 0)).run World.handler {}).2).2

/-- A comment on one video leaves the page of the other warm. -/
theorem invalidation_exact_prefixListed :
    Reached StoreKind.database.repository .redis (.ofSeconds 60) prefixListed ∧
    (∀ counter, counterOf (.create { video := "v", content := "x" }) = some counter → ∀ i,
      prefixListed.entries.reading prefixListed.now counter = some i →
        i < Int64.maxValue.toInt) ∧
    IsWarm StoreKind.database.repository .redis (.ofSeconds 60) prefixListed "v" 10 0 ∧
    (∀ limit offset, ¬ IsWarm StoreKind.database.repository .redis (.ofSeconds 60)
      ((minutely (.create { video := "v", content := "x" })).run World.handler prefixListed).2
      "v" limit offset) ∧
    IsWarm StoreKind.database.repository .redis (.ofSeconds 60)
      ((minutely (.create { video := "v", content := "x" })).run World.handler prefixListed).2
      "v:version" 10 0 := by
  have haccepts : CacheKind.redis.Accepts (.ofSeconds 60) := by decide
  have hreached : Reached StoreKind.database.repository .redis (.ofSeconds 60) prefixListed := by
    refine .call (.call (.empty ?_ ?_ ?_) (.list "v" 10 0)) (.list "v:version" 10 0)
    · exact fun _ _ _ _ _ => rfl
    · exact fun _ _ => rfl
    · exact ⟨fun _ => rfl, fun _ h => by cases h⟩
  have hroom : ∀ counter, counterOf (.create { video := "v", content := "x" }) = some counter →
      ∀ i, prefixListed.entries.reading prefixListed.now counter = some i →
        i < Int64.maxValue.toInt := by
    rintro _ ⟨⟩ i hi
    have hzero : prefixListed.entries.reading prefixListed.now (Cache.Key.version "v") =
        some 0 := by decide +kernel
    obtain rfl : 0 = i := Option.some.inj (hzero.symm.trans hi)
    decide
  have hwarm : IsWarm StoreKind.database.repository .redis (.ofSeconds 60) prefixListed "v" 10 0 ∧
      IsWarm StoreKind.database.repository .redis (.ofSeconds 60) prefixListed "v:version"
        10 0 := by decide +kernel
  have hok : ((minutely (.create { video := "v", content := "x" })).run World.handler
      prefixListed).1 = .ok (.numbered 1) := by decide +kernel
  have hexact : ∀ video limit offset, IsWarm StoreKind.database.repository .redis (.ofSeconds 60)
      ((minutely (.create { video := "v", content := "x" })).run World.handler prefixListed).2
      video limit offset ↔
      WarmAfter (IsWarm StoreKind.database.repository .redis (.ofSeconds 60) prefixListed)
        (.create { video := "v", content := "x" }) (.ok (.numbered 1)) video limit offset := by
    rw [← hok]
    exact invalidation_exact (sparesCache_repository .database) haccepts hreached
      (.create { video := "v", content := "x" }) hroom
  refine ⟨hreached, hroom, hwarm.1, fun limit offset hafter => ?_, ?_⟩
  · exact ((hexact "v" limit offset).1 hafter).2 rfl
  · exact (hexact "v:version" 10 0).2 ⟨hwarm.2, by decide⟩

end Repository

end VideoComments

import VideoComments.Proofs.Interleaving
import VideoComments.Proofs.Repository.Cached
import VideoComments.Proofs.Repository.Dialogue

/-!
# No stale page after a completed write

A listing that begins after a write has been counted does not see a page from before the write,
however calls interleave (`listing_after_increment`). The reasons are two.

* Where a page is, it has a provenance: some call got it from the store after it had read both
  counters, and read them to hold the numbers in the page's name (`Provenance`).
* Counters never go down (`Inv.reading_le`). What is read before an increment is less than what it
  answers, and what is read after it is not.

So a page that the later listing finds was read from the store after the increment, by a call that
had read the counter after the increment as well.
-/

namespace VideoComments.Interleaving

open Cache (Entries PageName)
open Repository

variable {lifetime : Duration} {s s' : State} {es fs : List Event} {e : Event}

/-! ## Where pages come from -/

/-- The store answered a call with the page, after the call had read the counters to hold the
numbers in the page's name. -/
def Provenance (es : List Event) (p : PageName) (page : List Comment) : Prop :=
  ∃ i as bs, es = as ++ .exchange i (listed p page) :: bs ∧ HasReadCounters (own i as) p

theorem Provenance.mono {p : PageName} {page : List Comment} (h : Provenance es p page)
    (fs : List Event) : Provenance (es ++ fs) p page := by
  obtain ⟨i, as, bs, rfl, hread⟩ := h
  exact ⟨i, as, bs ++ fs, by rw [List.append_assoc, List.cons_append], hread⟩

/-- What holds at every moment of a run. -/
structure Inv (es : List Event) (s : State) : Prop extends Tracked Allowed Justified es s where
  countersLast : s.entries.CountersLast
  /-- Pages in the cache have a provenance. -/
  pages : ∀ (p : PageName) e, s.entries.lookup p.key = some e →
    ∃ page, e.value = Utf8.encode (Page.encode page) ∧ Provenance es p page
  /-- So have pages that have been found there. -/
  hits : ∀ i (p : PageName) text, .exchange i ⟨.cache (.get p.key), .ok (some text)⟩ ∈ es →
    ∃ page, text = Page.encode page ∧ Provenance es p page

theorem inv_nil (hcalls : ∀ i, s.calls i = none) (hpages : s.entries.HasNoPages)
    (hcounters : s.entries.CountersLast) : Inv [] s where
  toTracked := tracked_nil hcalls
  countersLast := hcounters
  pages p e he := by
    rw [PageName.key, hpages] at he
    cases he
  hits i p text hmem := by cases hmem

/-! ## What an event does to the cache -/

/-- **Pages may go, a page with a provenance may be set, or a counter may go up by one.** -/
theorem Inv.entries_cases (h : Inv es s) (hs : Step (cached .direct .direct lifetime) s e s') :
    s.entries.Shrinks s'.entries ∨
      (∃ (p : PageName) (page : List Comment) (expiry : Option Nat), Provenance es p page ∧
        s'.entries = s.entries.put p.key
          { value := Utf8.encode (Page.encode page), expiry := expiry }) ∨
      ∃ counter n, Cache.Key.IsCounter counter ∧
        s.entries.increment s.now counter = (.ok n, s'.entries) := by
  cases hs with
  | begin => exact .inl (.refl _)
  | expire p => exact .inl (Entries.shrinks_erase_page _ _ _ _ _ _)
  | tick => exact .inl (.refl _)
  | @exchange i op c next answer entries hi hanswer =>
    have hallowed : Allowed op (own i es) c := (h.obeys i op _ hi).1
    cases hanswer with
    | failed => exact .inl (.refl _)
    | store => exact .inl (.refl _)
    | cache cop =>
      have hout := Cache.Operation.outcome_apply cop s.now s.entries
      simp only [State.set]
      generalize (cop.apply s.now s.entries).1 = answer at hout
      generalize (cop.apply s.now s.entries).2 = entries at hout ⊢
      cases hout with
      | failed => exact .inl (.refl _)
      | absent => exact .inl (.refl _)
      | found => exact .inl (.refl _)
      | deleted =>
        obtain ⟨p, rfl⟩ := hallowed
        exact .inl (Entries.shrinks_erase_page _ _ _ _ _ _)
      | @set _ _ _ expiry =>
        obtain ⟨p, page, xs, ys, rfl, rfl, hown, hread⟩ := hallowed
        obtain ⟨as, bs, hes, has⟩ := exists_split_of_own hown
        exact .inr (.inl ⟨p, page, some expiry, ⟨i, as, bs, hes, has ▸ hread⟩, rfl⟩)
      | @incremented counter n _ hinc =>
        exact .inr (.inr ⟨counter, n, isCounter_of_counterOf hallowed.1, hinc⟩)

/-- A look-up that finds something finds an entry that is there. -/
theorem exists_lookup_of_get {i : Nat} {key text : String}
    (hs : Step (cached .direct .direct lifetime) s
      (.exchange i ⟨.cache (.get key), .ok (some text)⟩) s') :
    ∃ e, s.entries.lookup key = some e ∧ Utf8.decode? e.value = some text := by
  have hout := hs.outcome
  generalize s'.entries = entries at hout
  cases hout with
  | found hlive htext => exact ⟨_, (Entries.live?_eq_some.1 hlive).1, htext⟩

/-- A number that is read is what the counter reads as. -/
theorem reading_of_get {i : Nat} {key : String} {answer : Option String} {c : Int}
    (hs : Step (cached .direct .direct lifetime) s (.exchange i ⟨.cache (.get key), .ok answer⟩) s')
    (hvalue : counterValue answer = some c) : s.entries.reading s.now key = some c := by
  have hout := hs.outcome
  generalize s'.entries = entries at hout
  cases hout with
  | absent hlive =>
    rw [Entries.reading, hlive]
    exact hvalue
  | found hlive htext =>
    rw [Entries.reading, hlive]
    simp only [htext, Option.bind_some]
    exact hvalue

/-! ## What a run preserves -/

namespace Inv

theorem countersLast_step (h : Inv es s) (hs : Step (cached .direct .direct lifetime) s e s') :
    s'.entries.CountersLast := by
  rcases h.entries_cases hs with hes | ⟨p, page, expiry, -, hes⟩ | ⟨counter, n, -, hinc⟩
  · exact h.countersLast.congr fun key hkey => hes.lookup_counter hkey
  · refine h.countersLast.congr fun key hkey => ?_
    rw [hes, Entries.lookup_put, if_neg (p.key_ne_counter hkey).symm]
  · exact h.countersLast.increment hinc

theorem pages_step (h : Inv es s) (hs : Step (cached .direct .direct lifetime) s e s')
    (p : PageName) (entry : Cache.Entry) (hentry : s'.entries.lookup p.key = some entry) :
    ∃ page, entry.value = Utf8.encode (Page.encode page) ∧ Provenance (es ++ [e]) p page := by
  rcases h.entries_cases hs with hes | ⟨q, page, expiry, hprovenance, hes⟩ |
    ⟨counter, n, hkey, hinc⟩
  · obtain ⟨page, hvalue, hpage⟩ := h.pages p entry (hes.lookup_eq_some hentry)
    exact ⟨page, hvalue, hpage.mono [e]⟩
  · rw [hes, Entries.lookup_put] at hentry
    split at hentry
    · next heq =>
      obtain rfl := Cache.PageName.key_injective heq
      cases hentry
      exact ⟨page, rfl, hprovenance.mono [e]⟩
    · obtain ⟨page, hvalue, hpage⟩ := h.pages p entry hentry
      exact ⟨page, hvalue, hpage.mono [e]⟩
  · rw [Entries.lookup_increment hinc (p.key_ne_counter hkey)] at hentry
    obtain ⟨page, hvalue, hpage⟩ := h.pages p entry hentry
    exact ⟨page, hvalue, hpage.mono [e]⟩

theorem hits_step (h : Inv es s) (hs : Step (cached .direct .direct lifetime) s e s') (i : Nat)
    (p : PageName) (text : String)
    (hmem : .exchange i ⟨.cache (.get p.key), .ok (some text)⟩ ∈ es ++ [e]) :
    ∃ page, text = Page.encode page ∧ Provenance (es ++ [e]) p page := by
  rcases List.mem_append.1 hmem with hmem | hmem
  · obtain ⟨page, htext, hpage⟩ := h.hits i p text hmem
    exact ⟨page, htext, hpage.mono [e]⟩
  · obtain rfl := List.mem_singleton.1 hmem
    obtain ⟨entry, hentry, htext⟩ := exists_lookup_of_get hs
    obtain ⟨page, hvalue, hpage⟩ := h.pages p entry hentry
    rw [hvalue, Utf8.decode?_encode] at htext
    exact ⟨page, (Option.some.inj htext).symm, hpage.mono _⟩

/-- What one event preserves. -/
theorem step (h : Inv es s) (hs : Step (cached .direct .direct lifetime) s e s') :
    Inv (es ++ [e]) s' where
  toTracked := h.toTracked.step (cached_obeys · lifetime) hs
  countersLast := h.countersLast_step hs
  pages := h.pages_step hs
  hits := h.hits_step hs

/-- What a run preserves. -/
theorem run (h : Inv es s) (hr : Run (cached .direct .direct lifetime) s fs s') :
    Inv (es ++ fs) s' := by
  induction hr generalizing es with
  | nil => rwa [List.append_nil]
  | @cons s t u e fs hs _ ih =>
    rw [← List.singleton_append, ← List.append_assoc]
    exact ih (h.step hs)

/-! ## Counters never go down -/

theorem reading_le_step (h : Inv es s) (hs : Step (cached .direct .direct lifetime) s e s')
    {key : String} (hkey : Cache.Key.IsCounter key) {c : Int}
    (hc : s.entries.reading s.now key = some c) :
    ∃ c', s'.entries.reading s'.now key = some c' ∧ c ≤ c' := by
  rw [(h.countersLast_step hs).reading_eq hkey s.now s'.now]
  rcases h.entries_cases hs with hes | ⟨p, page, expiry, -, hes⟩ | ⟨counter, n, -, hinc⟩
  · exact ⟨c, (hes.reading_eq hkey s.now).trans hc, le_rfl⟩
  · have hne : key ≠ p.key := (p.key_ne_counter hkey).symm
    exact ⟨c, by rw [hes, Entries.reading_put_of_ne _ hne, hc], le_rfl⟩
  · by_cases heq : key = counter
    · subst heq
      obtain ⟨hread, -, -⟩ := Entries.increment_ok hinc
      have hn : c = n - 1 := Option.some.inj (hc.symm.trans hread)
      exact ⟨n, Entries.reading_increment hinc, by omega⟩
    · have hlookup := Entries.lookup_increment hinc heq
      exact ⟨c, (Entries.reading_congr hlookup s.now).trans hc, le_rfl⟩

/-- **Counters never go down.** -/
theorem reading_le (h : Inv es s) (hr : Run (cached .direct .direct lifetime) s fs s')
    {key : String} (hkey : Cache.Key.IsCounter key) {c : Int}
    (hc : s.entries.reading s.now key = some c) :
    ∃ c', s'.entries.reading s'.now key = some c' ∧ c ≤ c' := by
  induction hr generalizing es c with
  | nil => exact ⟨c, hc, le_rfl⟩
  | cons hs _ ih =>
    obtain ⟨c₁, hc₁, hle₁⟩ := h.reading_le_step hs hkey hc
    obtain ⟨c₂, hc₂, hle₂⟩ := ih (h.step hs) hc₁
    exact ⟨c₂, hc₂, hle₁.trans hle₂⟩

end Inv

/-! ## Before and after an increment -/

variable {key : String} {i : Nat} {c : Int}

/-- What was read is what the counter read as at some state of the run. -/
theorem exists_reading_of_hasRead (hr : Run (cached .direct .direct lifetime) s fs s')
    (hread : HasRead (own i fs) key c) :
    ∃ as bs t, fs = as ++ bs ∧ Run (cached .direct .direct lifetime) s as t ∧
      Run (cached .direct .direct lifetime) t bs s' ∧ t.entries.reading t.now key = some c := by
  obtain ⟨answer, hmem, hvalue⟩ := hread
  obtain ⟨as, bs, rfl⟩ := List.append_of_mem (mem_own.1 hmem)
  obtain ⟨t, t', ha, hs, hb⟩ := hr.split
  exact ⟨as, _, t, rfl, ha, .cons hs hb, reading_of_get hs hvalue⟩

/-- What was read in a run is at most what the counter reads as after it. -/
theorem Inv.hasRead_le (h : Inv es s) (hr : Run (cached .direct .direct lifetime) s fs s')
    (hkey : Cache.Key.IsCounter key) (hread : HasRead (own i fs) key c) :
    ∃ c', s'.entries.reading s'.now key = some c' ∧ c ≤ c' := by
  obtain ⟨as, bs, t, -, ha, hb, hc⟩ := exists_reading_of_hasRead hr hread
  exact (h.run ha).reading_le hb hkey hc

/-- What is read in a run is at least what the counter reads as before it. -/
theorem Inv.le_hasRead (h : Inv es s) (hr : Run (cached .direct .direct lifetime) s fs s')
    (hkey : Cache.Key.IsCounter key) {b : Int} (hb : s.entries.reading s.now key = some b)
    (hread : HasRead (own i fs) key c) : b ≤ c := by
  obtain ⟨as, bs, t, -, ha, -, hc⟩ := exists_reading_of_hasRead hr hread
  obtain ⟨c', hc', hle⟩ := h.reading_le ha hkey hb
  have heq : c = c' := Option.some.inj (hc.symm.trans hc')
  exact heq ▸ hle

/-- A call that begins in a run has said nothing before it. -/
theorem Inv.own_eq_nil_of_begin (h : Inv es s)
    (hr : Run (cached .direct .direct lifetime) s fs s') {op : Operation}
    (hbegin : .begin i op ∈ fs) : own i es = [] := by
  obtain ⟨as, bs, rfl⟩ := List.append_of_mem hbegin
  obtain ⟨t, t', ha, hs, -⟩ := hr.split
  have hfree : t.calls i = none := by
    cases hs with
    | begin hi => exact hi
  have hnil := (h.run ha).fresh i hfree
  rw [own_append] at hnil
  exact (List.append_eq_nil_iff.1 hnil).1

/-- An increment that succeeds has moved the counter to what it answers. -/
theorem increment_of_step {n : Int} (hs : Step (cached .direct .direct lifetime) s
      (.exchange i ⟨.cache (.increment key), .ok n⟩) s') :
    s.entries.increment s.now key = (.ok n, s'.entries) := by
  have hout := hs.outcome
  generalize s'.entries = entries at hout ⊢
  cases hout with
  | incremented hinc => exact hinc

/-- Of two events in a run, one comes first. -/
theorem prefix_or_mem {as bs cs ds : List Event} {x y : Event} (h : as ++ x :: bs = cs ++ y :: ds)
    (hne : x ≠ y) : (∃ zs, cs = as ++ zs) ∨ x ∈ ds := by
  rcases List.append_eq_append_iff.1 h with ⟨zs, rfl, -⟩ | ⟨zs, -, hzs⟩
  · exact .inl ⟨zs, rfl⟩
  · cases zs with
    | nil => exact absurd (List.cons.inj hzs).1 hne.symm
    | cons z zs =>
      obtain ⟨-, rfl⟩ := List.cons.inj hzs
      exact .inr (List.mem_append_right zs List.mem_cons_self)

/-! ## Listings after a write -/

/-- Does a write concern the listings of a video? -/
def Concerns : Operation → String → Prop
  | .list .., _ => False
  | .create comment, video => comment.video = video
  | .update _, _ => True
  | .delete _, _ => True
  | .deleteByVideo other, video => other = video

/-- A page that a write concerns depends on the counter that the write moves. -/
theorem exists_hasRead_of_concerns {op : Operation} {p : PageName} (h : Concerns op p.video)
    (hcounter : counterOf op = some key) : ∃ c, ∀ xs, HasReadCounters xs p → HasRead xs key c := by
  have hkey : key = Cache.Key.generation ∨ key = Cache.Key.version p.video := by
    cases op with
    | list video limit offset => exact h.elim
    | create comment => cases hcounter; exact .inr (congrArg _ h)
    | update comment => cases hcounter; exact .inl rfl
    | delete id => cases hcounter; exact .inl rfl
    | deleteByVideo video => cases hcounter; exact .inr (congrArg _ h)
  rcases hkey with rfl | rfl
  · exact ⟨p.generation, fun xs hread => hread.1⟩
  · exact ⟨p.version, fun xs hread => hread.2⟩

/-- **No stale page after a completed write.** Any number of calls to a repository with a cache run
interleaved, from a cache without pages whose counters do not expire. When the increment of a write
has succeeded, so has the write itself before it; and a listing that begins after that increment,
of a video that the write concerns, lists what the store answered to some call after the increment,
for the same video, limit and offset. -/
theorem listing_after_increment (lifetime : Duration) {s₀ s : State}
    (hcalls : ∀ i, s₀.calls i = none) (hpages : s₀.entries.HasNoPages)
    (hcounters : s₀.entries.CountersLast) {before after : List Event} {write : Nat} {op : Operation}
    {key : String} {n : Int}
    (hrun : Run (cached .direct .direct lifetime) s₀
      (before ++ .exchange write ⟨.cache (.increment key), .ok n⟩ :: after) s)
    (hwrite : .begin write op ∈ before) {list : Nat} {video : String} {limit offset : Int}
    {page : List Comment} (hconcerns : Concerns op video)
    (hlist : .begin list (.list video limit offset) ∈ after)
    (hend : s.calls list = some ⟨.list video limit offset, .done (.ok page)⟩) :
    (∃ answer, .exchange write ⟨.store op, .ok answer⟩ ∈ before) ∧
      ∃ i, .exchange i ⟨.store (.list video limit offset), .ok page⟩ ∈ after := by
  obtain ⟨s₁, s₂, hbefore, hs, hafter⟩ := hrun.split
  have h₁ : Inv before s₁ := (inv_nil hcalls hpages hcounters).run hbefore
  have h₂ := h₁.step hs
  have h := h₂.run hafter
  obtain ⟨hcounter, answer, hanswer⟩ := h₁.toTracked.allowed hwrite hs
  refine ⟨⟨answer, mem_own.1 hanswer⟩, ?_⟩
  -- The counter reads less than `n` before the increment, and `n` after it.
  have hkey := isCounter_of_counterOf hcounter
  have hinc := increment_of_step hs
  obtain ⟨hlow, -, -⟩ := Entries.increment_ok hinc
  have hhigh : s₂.entries.reading s₂.now key = some n :=
    (h₂.countersLast.reading_eq hkey s₁.now s₂.now).trans (Entries.reading_increment hinc)
  -- All that the listing said comes after the increment.
  have hown := h₂.own_eq_nil_of_begin hafter hlist
  have hjustified := h.obeys list _ _ hend
  rw [own_append, hown, List.nil_append] at hjustified
  rcases hjustified with hmem | ⟨g, v, text, hget, hdecode, hread⟩
  · exact ⟨list, mem_own.1 hmem⟩
  · obtain ⟨c, hc⟩ := exists_hasRead_of_concerns (p := ⟨video, g, v, limit, offset⟩) hconcerns
      hcounter
    have hge : n ≤ c := h₂.le_hasRead hafter hkey hhigh (hc _ hread)
    obtain ⟨page', rfl, i, as, bs, hsplit, hread'⟩ :=
      h.hits list ⟨video, g, v, limit, offset⟩ text (List.mem_append_right _ (mem_own.1 hget))
    rw [Page.decode?_encode] at hdecode
    cases hdecode
    rw [List.append_assoc] at hsplit
    rcases prefix_or_mem hsplit.symm (fun heq => by cases heq) with ⟨zs, rfl⟩ | hmem
    · -- A page from before the increment stands under a smaller number.
      have hearly : HasRead (own i (as ++ zs)) key c := by
        rw [own_append]
        exact (hc _ hread').mono (List.subset_append_left _ _)
      obtain ⟨c', hc', hle⟩ := (inv_nil hcalls hpages hcounters).hasRead_le hbefore hkey hearly
      have heq : c' = n - 1 := Option.some.inj (hc'.symm.trans hlow)
      omega
    · exact ⟨i, hmem⟩

/-! ### A slow listing -/

/-- A listing has read the store when a comment is created. -/
def untilWrite : List Event :=
  [.begin 0 (.list "v" 0 0),
    .exchange 0 ⟨.cache (.get Cache.Key.generation), .ok none⟩,
    .exchange 0 ⟨.cache (.get (Cache.Key.version "v")), .ok none⟩,
    .exchange 0 ⟨.cache (.get (Cache.Key.page "v" 0 0 0 0)), .ok none⟩,
    .exchange 0 ⟨.store (.list "v" 0 0), .ok []⟩,
    .begin 1 (.create { video := "v", content := "x" }),
    .exchange 1 ⟨.store (.create { video := "v", content := "x" }), .ok (.numbered 1)⟩]

/-- The listing keeps its page after the write has been counted, and another listing follows. -/
def sinceWrite : List Event :=
  [.exchange 0 ⟨.cache (.set (Cache.Key.page "v" 0 0 0 0) (Page.encode []) (.ofSeconds 60)),
      .ok ()⟩,
    .begin 2 (.list "v" 0 0),
    .exchange 2 ⟨.cache (.get Cache.Key.generation), .ok none⟩,
    .exchange 2 ⟨.cache (.get (Cache.Key.version "v")), .ok (some "1")⟩,
    .exchange 2 ⟨.cache (.get (Cache.Key.page "v" 0 1 0 0)), .ok none⟩,
    .exchange 2 ⟨.store (.list "v" 0 0), .ok [⟨.numbered 1, "v", "x"⟩]⟩,
    .exchange 2 ⟨.cache (.set (Cache.Key.page "v" 0 1 0 0) (Page.encode [⟨.numbered 1, "v", "x"⟩])
      (.ofSeconds 60)), .error (.cache .notText)⟩]

/-- The second listing does not see the page of the first. -/
theorem listing_after_increment_slowListing :
    (∀ i, ({} : State).calls i = none) ∧ ({} : State).entries.HasNoPages ∧
    ({} : State).entries.CountersLast ∧ ∃ s,
    Run (cached .direct .direct (.ofSeconds 60)) {}
      (untilWrite ++ .exchange 1 ⟨.cache (.increment (Cache.Key.version "v")), .ok 1⟩ :: sinceWrite)
      s ∧
    .begin 1 (.create { video := "v", content := "x" }) ∈ untilWrite ∧
    Concerns (.create { video := "v", content := "x" }) "v" ∧
    .begin 2 (.list "v" 0 0) ∈ sinceWrite ∧
    s.calls 2 = some ⟨.list "v" 0 0, .done (.ok [⟨.numbered 1, "v", "x"⟩])⟩ ∧
    (∃ answer, .exchange 1 ⟨.store (.create { video := "v", content := "x" }), .ok answer⟩ ∈
      untilWrite) ∧
    ∃ i, .exchange i ⟨.store (.list "v" 0 0), .ok [⟨.numbered 1, "v", "x"⟩]⟩ ∈ sinceWrite := by
  have hcalls : ∀ i, ({} : State).calls i = none := fun _ => rfl
  have hpages : ({} : State).entries.HasNoPages := fun _ _ _ _ _ => rfl
  have hcounters : ({} : State).entries.CountersLast := fun _ _ _ h => by cases h
  have hwrite : .begin 1 (.create { video := "v", content := "x" }) ∈ untilWrite := by
    simp [untilWrite]
  have hlist : .begin 2 (.list "v" 0 0) ∈ sinceWrite := by
    simp [sinceWrite]
  obtain ⟨s, hrun, hend⟩ : ∃ s, Run (cached .direct .direct (.ofSeconds 60)) {}
      (untilWrite ++ .exchange 1 ⟨.cache (.increment (Cache.Key.version "v")), .ok 1⟩ :: sinceWrite)
      s ∧ s.calls 2 = some ⟨.list "v" 0 0, .done (.ok [⟨.numbered 1, "v", "x"⟩])⟩ :=
    ⟨_,
      .cons (.begin rfl) <|
      .cons (.exchange rfl (.cache _)) <|
      .cons (.exchange rfl (.cache _)) <|
      .cons (.exchange rfl (.cache _)) <|
      .cons (.exchange rfl (.store _ _)) <|
      .cons (.begin rfl) <|
      .cons (.exchange rfl (.store _ _)) <|
      .cons (.exchange rfl (.cache _)) <|
      .cons (.exchange rfl (.cache _)) <|
      .cons (.begin rfl) <|
      .cons (.exchange rfl (.cache _)) <|
      .cons (.exchange rfl (.get (by decide +kernel))) <|
      .cons (.exchange rfl (.get (by decide +kernel))) <|
      .cons (.exchange rfl (.store _ _)) <|
      .cons (.exchange rfl (.failed _ _)) (.nil _), rfl⟩
  obtain ⟨hstored, hread⟩ := listing_after_increment (.ofSeconds 60) hcalls hpages hcounters hrun
    hwrite rfl hlist hend
  exact ⟨hcalls, hpages, hcounters, s, hrun, hwrite, rfl, hlist, hend, hstored, hread⟩

end VideoComments.Interleaving

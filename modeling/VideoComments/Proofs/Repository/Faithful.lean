import VideoComments.Proofs.Repository.Transcript
import VideoComments.Proofs.Substitution

/-!
# A cache that misbehaves changes nothing

The store and the cache may answer what they please: any operation may fail, and any text may be
found under any key. Read off its transcripts, a call is faithful all the same (`Faithful`). A write
asks the store once, answers what the store answers, and increments one counter if the store has
carried it out. A listing asks the store at most once, fails only as the store fails, and has a page
set if and only if one is due (`Due`).

This holds over every repository and every client, for `cached` over them is one program expanded
(`expand_cached`), and whoever answers (`cached_faithful`).
-/

namespace VideoComments.Repository

open Program
open Cache (PageName)

/-! ## What a call owes -/

/-- A page is due to be kept: both counters were read to hold the numbers in its name, no page was
found under its key, and the store answered it. -/
structure Due (xs : List Exchange) (p : PageName) (page : List Comment) : Prop where
  counters : HasReadCounters xs p
  missed : ∀ text, (⟨.cache (.get p.key), .ok (some text)⟩ : Exchange) ∈ xs →
    Page.decode? text = none
  answered : listed p page ∈ xs

/-- What a listing owes to whoever asks for it, in terms of its exchanges and of its answer. -/
structure ListsFaithfully (lifetime : Duration) (video : String) (limit offset : Int)
    (xs : List Exchange) (r : Except Failure (List Comment)) : Prop where
  /-- The store is asked at most once, and for this very page; then its answer is the answer. -/
  asks : xs.filter Exchange.isStore = [] ∨
    xs.filter Exchange.isStore = [⟨.store (.list video limit offset), r⟩]
  /-- A listing fails only as the store has failed. -/
  fails : ∀ failure, r = .error failure →
    (⟨.store (.list video limit offset), .error failure⟩ : Exchange) ∈ xs
  /-- If the store is not asked, the answer is the page that the cache gave under the key made of
  the numbers that the counters were read to hold. -/
  finds : xs.filter Exchange.isStore = [] → ∃ g n text page,
    HasReadCounters xs ⟨video, g, n, limit, offset⟩ ∧
    (⟨.cache (.get (Cache.Key.page video g n limit offset)), .ok (some text)⟩ : Exchange) ∈ xs ∧
    Page.decode? text = some page ∧ r = .ok page
  /-- Something is set if a page is due to be kept, and only then. -/
  sets_iff : (∃ x ∈ xs, x.isSet = true) ↔
    ∃ g n page, Due xs ⟨video, g, n, limit, offset⟩ page
  /-- The page that is due is what the listing answers, and is set once. -/
  sets : ∀ g n page, Due xs ⟨video, g, n, limit, offset⟩ page → r = .ok page ∧ ∃ answer,
    xs.filter Exchange.isSet = [⟨.cache (.set (Cache.Key.page video g n limit offset)
      (Page.encode page) lifetime), answer⟩]

/-- What a call owes. For a write it is to take one of the ways. -/
def Faithful (lifetime : Duration) :
    (op : Operation) → List Exchange → Except Failure op.Answer → Prop
  | .list video limit offset, xs, r => ListsFaithfully lifetime video limit offset xs r
  | op, xs, r => ∃ counter, counterOf op = some counter ∧ WriteTranscript op counter xs r

theorem mem_of_filter_isStore {xs ys : List Exchange} {op : Operation}
    {r : Except Failure op.Answer} (h : xs.filter Exchange.isStore = ys)
    (hmem : (⟨.store op, r⟩ : Exchange) ∈ xs) : (⟨.store op, r⟩ : Exchange) ∈ ys := by
  rw [← h]
  exact List.mem_filter.2 ⟨hmem, rfl⟩

section

variable {lifetime : Duration} {video : String} {limit offset : Int} {xs ys : List Exchange}
  {p : PageName} {r : Except Failure (List Comment)}

/-- Where no page is due, nothing is to be set. -/
theorem ListsFaithfully.of_not_due
    (asks : xs.filter Exchange.isStore = [] ∨
      xs.filter Exchange.isStore = [⟨.store (.list video limit offset), r⟩])
    (finds : xs.filter Exchange.isStore = [] → ∃ g n text page,
      HasReadCounters xs ⟨video, g, n, limit, offset⟩ ∧
      (⟨.cache (.get (Cache.Key.page video g n limit offset)), .ok (some text)⟩ : Exchange) ∈ xs ∧
      Page.decode? text = some page ∧ r = .ok page)
    (hset : xs.filter Exchange.isSet = [])
    (hdue : ∀ g n page, ¬ Due xs ⟨video, g, n, limit, offset⟩ page) :
    ListsFaithfully lifetime video limit offset xs r where
  asks := asks
  fails failure hr := by
    rcases asks with hnone | hone
    · obtain ⟨g, n, text, page, -, -, -, hok⟩ := finds hnone
      cases hr.symm.trans hok
    · rw [hr] at hone
      exact (List.mem_filter.1 (hone ▸ List.mem_singleton_self _)).1
  finds := finds
  sets_iff := by
    refine ⟨fun ⟨x, hx, hisSet⟩ => ?_, fun ⟨g, n, page, h⟩ => (hdue g n page h).elim⟩
    exact absurd hisSet (List.filter_eq_nil_iff.1 hset x hx)
  sets g n page h := (hdue g n page h).elim

namespace ListTranscript

/-- After the counters no counter is looked up. -/
theorem get_counter_notMem (hys : MissTranscript p.key ys) {rest : List Exchange}
    (hrest : ∀ key a, (⟨.cache (.get key), a⟩ : Exchange) ∉ rest) (key : String)
    (hkey : Cache.Key.IsCounter key) (a : Except Failure (Option String)) :
    (⟨.cache (.get key), a⟩ : Exchange) ∉ ys ++ rest := by
  intro hmem
  rcases List.mem_append.1 hmem with hmem | hmem
  · exact hys.get_notMem (p.key_ne_counter hkey).symm a hmem
  · exact hrest key a hmem

theorem faithful_through (hxs : CountersTranscript video limit offset xs none)
    (answer : Except Failure (List Comment)) :
    ListsFaithfully lifetime video limit offset
      (xs ++ [⟨.store (.list video limit offset), answer⟩]) answer := by
  generalize hall : xs ++ _ = all
  have hstore : all.filter Exchange.isStore = [⟨.store (.list video limit offset), answer⟩] := by
    rw [← hall, List.filter_append, hxs.filter_isStore]
    rfl
  refine .of_not_due (.inr hstore) (fun hnone => ?_) ?_ fun g n page hdue => ?_
  · cases hstore.symm.trans hnone
  · rw [← hall, List.filter_append, hxs.filter_isSet]
    rfl
  · have hread := hdue.counters
    rw [← hall] at hread
    cases hxs.eq_of_hasReadCounters (by simp) hread

theorem faithful_hit {text : String} {page : List Comment}
    (hxs : CountersTranscript video limit offset xs (some p))
    (htext : Page.decode? text = some page) :
    ListsFaithfully lifetime video limit offset
      (xs ++ [⟨.cache (.get p.key), .ok (some text)⟩]) (.ok page) := by
  obtain ⟨g, n, rfl⟩ := hxs.exists_eq
  generalize hall : xs ++ _ = all
  have hstore : all.filter Exchange.isStore = [] := by
    rw [← hall, List.filter_append, hxs.filter_isStore]
    rfl
  have hread : HasReadCounters all ⟨video, g, n, limit, offset⟩ :=
    hxs.hasReadCounters.mono (hall ▸ List.subset_append_left xs _)
  refine .of_not_due (.inl hstore) (fun _ => ⟨g, n, text, page, hread, ?_, htext, rfl⟩) ?_
    fun g' n' page' hdue => ?_
  · rw [← hall]
    exact List.mem_append_right xs (List.mem_singleton_self _)
  · rw [← hall, List.filter_append, hxs.filter_isSet]
    rfl
  · cases mem_of_filter_isStore hstore hdue.answered

theorem faithful_refused (hxs : CountersTranscript video limit offset xs (some p))
    (hys : MissTranscript p.key ys) (failure : Failure) :
    ListsFaithfully lifetime video limit offset
      (xs ++ ys ++ [⟨.store (.list video limit offset), .error failure⟩]) (.error failure) := by
  generalize hall : xs ++ ys ++ _ = all
  have hstore : all.filter Exchange.isStore =
      [⟨.store (.list video limit offset), .error failure⟩] := by
    rw [← hall, List.filter_append, List.filter_append, hxs.filter_isStore, hys.filter_isStore]
    rfl
  refine .of_not_due (.inr hstore) (fun hnone => ?_) ?_ fun g n page hdue => ?_
  · cases hstore.symm.trans hnone
  · rw [← hall, List.filter_append, List.filter_append, hxs.filter_isSet, hys.filter_isSet]
    rfl
  · have hmem := mem_of_filter_isStore hstore hdue.answered
    simp at hmem

/-- Where a page is kept, it is the one page that is due. -/
theorem faithful_kept (hxs : CountersTranscript video limit offset xs (some p))
    (hys : MissTranscript p.key ys) (page : List Comment) (c : Except Failure Unit) :
    ListsFaithfully lifetime video limit offset
      (xs ++ ys ++ [⟨.store (.list video limit offset), .ok page⟩,
        ⟨.cache (.set p.key (Page.encode page) lifetime), c⟩]) (.ok page) := by
  obtain ⟨g, n, rfl⟩ := hxs.exists_eq
  generalize hall : xs ++ ys ++ _ = all
  have hstore : all.filter Exchange.isStore =
      [⟨.store (.list video limit offset), .ok page⟩] := by
    rw [← hall, List.filter_append, List.filter_append, hxs.filter_isStore, hys.filter_isStore]
    rfl
  have hset : all.filter Exchange.isSet = [⟨.cache (.set
      (Cache.Key.page video g n limit offset) (Page.encode page) lifetime), c⟩] := by
    rw [← hall, List.filter_append, List.filter_append, hxs.filter_isSet, hys.filter_isSet]
    rfl
  have hdue : Due all ⟨video, g, n, limit, offset⟩ page := by
    refine ⟨hxs.hasReadCounters.mono ?_, fun text hmem => ?_, ?_⟩
    · rw [← hall, List.append_assoc]
      exact List.subset_append_left xs _
    · rw [← hall, List.append_assoc] at hmem
      have hmem := (List.mem_append.1 hmem).resolve_left (hxs.get_page_notMem _ _)
      exact hys.decode?_eq_none ((List.mem_append.1 hmem).resolve_right (by simp))
    · rw [← hall]
      exact List.mem_append_right _ List.mem_cons_self
  refine ⟨.inr hstore, fun _ h => (by cases h), fun hnone => ?_, ?_,
    fun g' n' page' hdue' => ?_⟩
  · cases hstore.symm.trans hnone
  · refine ⟨fun _ => ⟨g, n, page, hdue⟩, fun _ => ?_⟩
    exact ⟨_, List.mem_filter.1 (hset ▸ List.mem_singleton_self _)⟩
  · have hpage : page' = page := by
      have hmem := mem_of_filter_isStore hstore hdue'.answered
      simpa using hmem
    have hname : some (⟨video, g, n, limit, offset⟩ : PageName) =
        some ⟨video, g', n', limit, offset⟩ := by
      have hread := hdue'.counters
      rw [← hall, List.append_assoc] at hread
      exact hxs.eq_of_hasReadCounters (get_counter_notMem hys (by simp)) hread
    cases hname
    exact ⟨by rw [hpage], c, by rw [hset, hpage]⟩

/-- **Whichever way a listing takes, it does what it owes.** -/
theorem faithful (h : ListTranscript lifetime video limit offset xs r) :
    ListsFaithfully lifetime video limit offset xs r := by
  cases h with
  | through hxs => exact faithful_through hxs r
  | hit hxs htext => exact faithful_hit hxs htext
  | refused hxs hys failure => exact faithful_refused hxs hys failure
  | kept hxs hys page c => exact faithful_kept hxs hys page c

end ListTranscript

end

/-! ## Over every repository and every client -/

section

variable (inner : Repository) (client : Cache.Client) (lifetime : Duration)

theorem expand_readCounter (key : String) :
    (readCounter .direct key).expand inner client = readCounter client key := by
  refine expand_bind_congr _ _ (expand_cache _ _ _) fun answer => ?_
  rcases answer with failure | _ | value
  · rfl
  · rfl
  · simp only
    cases Decimal.int64? value.toList <;> rfl

theorem expand_readCounters (video : String) :
    (readCounters .direct video).expand inner client = readCounters client video := by
  refine expand_bind_congr _ _ (expand_readCounter inner client _) fun answer => ?_
  cases answer with
  | error failure => rfl
  | ok generation =>
    refine expand_bind_congr _ _ (expand_readCounter inner client _) fun answer => ?_
    cases answer <;> rfl

theorem expand_pageKey (video : String) (limit offset : Int) :
    (pageKey .direct video limit offset).expand inner client =
      pageKey client video limit offset := by
  refine expand_bind_congr _ _ (expand_readCounters inner client video) fun counters => ?_
  cases counters <;> rfl

theorem expand_dropPage (key : String) :
    (dropPage .direct key).expand inner client = dropPage client key := by
  refine expand_bind_congr _ _ (expand_log _ _ _ _) fun _ => ?_
  refine expand_bind_congr _ _ (expand_cache _ _ _) fun answer => ?_
  cases answer <;> rfl

theorem expand_cachedPage (key : String) :
    (cachedPage .direct key).expand inner client = cachedPage client key := by
  refine expand_bind_congr _ _ (expand_cache _ _ _) fun answer => ?_
  rcases answer with failure | _ | text
  · rfl
  · rfl
  · simp only
    cases Page.decode? text with
    | some page => rfl
    | none => exact expand_bind_congr _ _ (expand_dropPage inner client key) fun _ => rfl

theorem expand_storePage (key : String) (page : List Comment) :
    (storePage .direct lifetime key page).expand inner client =
      storePage client lifetime key page := by
  refine expand_bind_congr _ _ (expand_cache _ _ _) fun answer => ?_
  cases answer <;> rfl

theorem expand_invalidate (counter : String) :
    (invalidate .direct counter).expand inner client = invalidate client counter := by
  refine expand_bind_congr _ _ (expand_cache _ _ _) fun answer => ?_
  cases answer <;> rfl

theorem expand_listCached (video : String) (limit offset : Int) :
    (listCached .direct .direct lifetime video limit offset).expand inner client =
      listCached inner client lifetime video limit offset := by
  refine expand_bind_congr _ _ (expand_pageKey inner client video limit offset) fun key? => ?_
  cases key? with
  | none => exact expand_store inner client (.list video limit offset)
  | some key =>
    refine expand_bind_congr _ _ (expand_cachedPage inner client key) fun page? => ?_
    cases page? with
    | some page => rfl
    | none =>
      refine expand_bind_congr _ _ (expand_store inner client _) fun answer => ?_
      cases answer with
      | error failure => rfl
      | ok page =>
        exact expand_bind_congr _ _ (expand_storePage inner client lifetime key page) fun _ => rfl

theorem expand_writeThrough (op : Operation) :
    (writeThrough .direct .direct op).expand inner client = writeThrough inner client op := by
  refine expand_bind_congr _ _ (expand_store inner client op) fun answer => ?_
  cases answer with
  | error failure => rfl
  | ok answer =>
    simp only
    cases counterOf op with
    | none => rfl
    | some counter =>
      exact expand_bind_congr _ _ (expand_invalidate inner client counter) fun _ => rfl

/-- Over any repository and any client, `cached` is one program expanded. -/
theorem expand_cached (op : Operation) :
    (cached .direct .direct lifetime op).expand inner client = cached inner client lifetime op := by
  cases op with
  | list video limit offset => exact expand_listCached inner client lifetime video limit offset
  | create | update | delete | deleteByVideo => exact expand_writeThrough inner client _

end

/-- What a call asks of the repository and of the cache under it, operation by operation, and what
each is answered. -/
def conversation {σ : Type} (h : Handler σ) (inner : Repository) (client : Cache.Client)
    (lifetime : Duration) (op : Operation) (s : σ) : List Exchange :=
  (cached .direct .direct lifetime op).exchanges (h.through inner client) s

/-- **A cache that misbehaves changes nothing.** Over every repository and every client, whoever
answers their calls and whatever is answered, the call runs just as its operations are answered, and
is faithful in what it asks and in what it answers. -/
theorem cached_faithful {σ : Type} (h : Handler σ) (inner : Repository) (client : Cache.Client)
    (lifetime : Duration) (op : Operation) (s : σ) :
    (cached inner client lifetime op).run h s =
        (cached .direct .direct lifetime op).run (h.through inner client) s ∧
      Faithful lifetime op (conversation h inner client lifetime op s)
        ((cached inner client lifetime op).run h s).1 := by
  have hrun := run_expand inner client h (cached .direct .direct lifetime op) s
  rw [expand_cached] at hrun
  have htranscript := (cached_transcript lifetime op).run (h.through inner client) s
  rw [List.nil_append] at htranscript
  refine ⟨hrun, ?_⟩
  rw [hrun, conversation]
  cases op with
  | list video limit offset => exact ListTranscript.faithful htranscript
  | create | update | delete | deleteByVideo => exact htranscript

end VideoComments.Repository

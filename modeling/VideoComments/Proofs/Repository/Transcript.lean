import VideoComments.Proofs.Repository.Dialogue

/-!
# Transcripts of calls to a repository with a cache

What a call asks of the store and of the cache, exchange by exchange, whatever it is answered. There
is one constructor for each way that a call can take (`ListTranscript`, `WriteTranscript`), and
every call takes one of them (`cached_transcript`).
-/

namespace VideoComments

namespace Exchange

/-- Was the store asked for an operation? -/
def isStore : Exchange → Bool
  | ⟨.store _, _⟩ => true
  | _ => false

/-- Was the cache to keep a value? -/
def isSet : Exchange → Bool
  | ⟨.cache (.set ..), _⟩ => true
  | _ => false

end Exchange

namespace Repository

open Program
open Cache (PageName)

/-! ## The ways of a call -/

/-- The number that an answer to a look-up of a counter gives, if any. -/
def counterRead : Except Failure (Option String) → Option Int
  | .ok answer => counterValue answer
  | .error _ => none

/-- A listing reads the counters, and knows its page by their numbers if both hold one. -/
inductive CountersTranscript (video : String) (limit offset : Int) :
    List Exchange → Option PageName → Prop
  | noGeneration {a : Except Failure (Option String)} (ha : counterRead a = none) :
      CountersTranscript video limit offset [⟨.cache (.get Cache.Key.generation), a⟩] none
  | noVersion {a b : Except Failure (Option String)} {g : Int} (ha : counterRead a = some g)
      (hb : counterRead b = none) :
      CountersTranscript video limit offset
        [⟨.cache (.get Cache.Key.generation), a⟩, ⟨.cache (.get (Cache.Key.version video)), b⟩] none
  | both {a b : Except Failure (Option String)} {g n : Int} (ha : counterRead a = some g)
      (hb : counterRead b = some n) :
      CountersTranscript video limit offset
        [⟨.cache (.get Cache.Key.generation), a⟩, ⟨.cache (.get (Cache.Key.version video)), b⟩]
        (some ⟨video, g, n, limit, offset⟩)

/-- A page is looked up in vain. What is there and is no page is to be deleted. -/
inductive MissTranscript (key : String) : List Exchange → Prop
  | failed (failure : Failure) : MissTranscript key [⟨.cache (.get key), .error failure⟩]
  | absent : MissTranscript key [⟨.cache (.get key), .ok none⟩]
  | dropped {text : String} (htext : Page.decode? text = none) (b : Except Failure Unit) :
      MissTranscript key [⟨.cache (.get key), .ok (some text)⟩, ⟨.cache (.delete key), b⟩]

/-- The ways of a listing, each with what it answers. -/
inductive ListTranscript (lifetime : Duration) (video : String) (limit offset : Int) :
    List Exchange → Except Failure (List Comment) → Prop
  /-- The counters cannot be read, and the store answers. -/
  | through {xs : List Exchange} (hxs : CountersTranscript video limit offset xs none)
      (answer : Except Failure (List Comment)) :
      ListTranscript lifetime video limit offset
        (xs ++ [⟨.store (.list video limit offset), answer⟩]) answer
  /-- The page is found. -/
  | hit {xs : List Exchange} {p : PageName} {text : String} {page : List Comment}
      (hxs : CountersTranscript video limit offset xs (some p))
      (htext : Page.decode? text = some page) :
      ListTranscript lifetime video limit offset
        (xs ++ [⟨.cache (.get p.key), .ok (some text)⟩]) (.ok page)
  /-- The page is not found, and the store fails. -/
  | refused {xs ys : List Exchange} {p : PageName}
      (hxs : CountersTranscript video limit offset xs (some p)) (hys : MissTranscript p.key ys)
      (failure : Failure) :
      ListTranscript lifetime video limit offset
        (xs ++ ys ++ [⟨.store (.list video limit offset), .error failure⟩]) (.error failure)
  /-- The page is not found, and the one that the store answers is to be kept. -/
  | kept {xs ys : List Exchange} {p : PageName}
      (hxs : CountersTranscript video limit offset xs (some p)) (hys : MissTranscript p.key ys)
      (page : List Comment) (c : Except Failure Unit) :
      ListTranscript lifetime video limit offset
        (xs ++ ys ++ [⟨.store (.list video limit offset), .ok page⟩,
          ⟨.cache (.set p.key (Page.encode page) lifetime), c⟩]) (.ok page)

/-- The ways of a write that a counter counts: the store is asked once and answers the call, and if
the write has succeeded the counter is to be incremented. -/
inductive WriteTranscript (op : Operation) (counter : String) :
    List Exchange → Except Failure op.Answer → Prop
  | refused (failure : Failure) :
      WriteTranscript op counter [⟨.store op, .error failure⟩] (.error failure)
  | carriedOut (answer : op.Answer) (n : Except Failure Int) :
      WriteTranscript op counter [⟨.store op, .ok answer⟩, ⟨.cache (.increment counter), n⟩]
        (.ok answer)

/-- The ways of a call. -/
def Transcript (lifetime : Duration) :
    (op : Operation) → List Exchange → Except Failure op.Answer → Prop
  | .list video limit offset, xs, r => ListTranscript lifetime video limit offset xs r
  | op, xs, r => ∃ counter, counterOf op = some counter ∧ WriteTranscript op counter xs r

/-! ## Every call takes one of the ways -/

section

variable (xs : List Exchange)

theorem readCounter_transcript (key : String) :
    Obeys (fun _ _ => True) (fun ys r => ∃ a, ys = xs ++ [⟨.cache (.get key), a⟩] ∧
        counterRead a = r.toOption) xs (readCounter .direct key) := by
  rw [readCounter, obeys_bind]
  refine ⟨trivial, fun answer => ?_⟩
  rcases answer with failure | _ | value
  · exact ⟨_, rfl, rfl⟩
  · exact ⟨_, rfl, rfl⟩
  · simp only [obeys_done]
    cases hvalue : Decimal.int64? value.toList with
    | none => exact ⟨_, rfl, hvalue⟩
    | some i => exact ⟨_, rfl, hvalue⟩

theorem pageKey_transcript (video : String) (limit offset : Int) :
    Obeys (fun _ _ => True) (fun ys r => ∃ zs p?, ys = xs ++ zs ∧ r = p?.map PageName.key ∧
        CountersTranscript video limit offset zs p?) xs (pageKey .direct video limit offset) := by
  rw [pageKey, obeys_bind, readCounters, obeys_bind]
  refine (readCounter_transcript xs Cache.Key.generation).mono fun ys r hr => ?_
  obtain ⟨a, rfl, ha⟩ := hr
  cases r with
  | error failure => exact ⟨_, none, rfl, rfl, .noGeneration ha⟩
  | ok g =>
    simp only [obeys_bind]
    refine (readCounter_transcript _ (Cache.Key.version video)).mono fun zs r hr => ?_
    obtain ⟨b, rfl, hb⟩ := hr
    cases r with
    | error failure => exact ⟨_, none, List.append_assoc xs _ _, rfl, .noVersion ha hb⟩
    | ok n =>
      exact ⟨_, some ⟨video, g, n, limit, offset⟩, List.append_assoc xs _ _, rfl, .both ha hb⟩

theorem cachedPage_transcript (key : String) :
    Obeys (fun _ _ => True) (fun ys r => ∃ zs, ys = xs ++ zs ∧
        ((r = none ∧ MissTranscript key zs) ∨ ∃ text page, r = some page ∧
          Page.decode? text = some page ∧ zs = [⟨.cache (.get key), .ok (some text)⟩])) xs
      (cachedPage .direct key) := by
  rw [cachedPage, obeys_bind]
  refine ⟨trivial, fun answer => ?_⟩
  rcases answer with failure | _ | text
  · exact ⟨_, rfl, .inl ⟨rfl, .failed failure⟩⟩
  · exact ⟨_, rfl, .inl ⟨rfl, .absent⟩⟩
  · simp only [obeys_done]
    cases hpage : Page.decode? text with
    | some page => exact ⟨_, rfl, .inr ⟨text, page, rfl, hpage, rfl⟩⟩
    | none =>
      simp only [dropPage, obeys_bind, obeys_log]
      refine ⟨trivial, fun answer => ?_⟩
      cases answer with
      | error failure => exact ⟨_, List.append_assoc xs _ _, .inl ⟨rfl, .dropped hpage _⟩⟩
      | ok => exact ⟨_, List.append_assoc xs _ _, .inl ⟨rfl, .dropped hpage _⟩⟩

theorem storePage_transcript (lifetime : Duration) (key : String) (page : List Comment) :
    Obeys (fun _ _ => True)
      (fun ys _ => ∃ c, ys = xs ++ [⟨.cache (.set key (Page.encode page) lifetime), c⟩]) xs
      (storePage .direct lifetime key page) := by
  rw [storePage, obeys_bind]
  refine ⟨trivial, fun answer => ?_⟩
  cases answer with
  | error failure => exact ⟨_, rfl⟩
  | ok => exact ⟨_, rfl⟩

theorem invalidate_transcript (counter : String) :
    Obeys (fun _ _ => True) (fun ys _ => ∃ n, ys = xs ++ [⟨.cache (.increment counter), n⟩]) xs
      (invalidate .direct counter) := by
  rw [invalidate, obeys_bind]
  refine ⟨trivial, fun answer => ?_⟩
  cases answer with
  | error failure => exact ⟨_, rfl⟩
  | ok n => exact ⟨_, rfl⟩

end

theorem listCached_transcript (lifetime : Duration) (video : String) (limit offset : Int) :
    Obeys (fun _ _ => True) (ListTranscript lifetime video limit offset) []
      (listCached .direct .direct lifetime video limit offset) := by
  rw [listCached, obeys_bind]
  refine (pageKey_transcript [] video limit offset).mono fun xs key? hkey => ?_
  obtain ⟨zs, p?, rfl, rfl, hzs⟩ := hkey
  cases p? with
  | none => exact ⟨trivial, fun answer => .through hzs answer⟩
  | some p =>
    simp only [Option.map_some, obeys_bind]
    refine (cachedPage_transcript _ p.key).mono fun xs page? hpage => ?_
    obtain ⟨ys, rfl, hys⟩ := hpage
    rcases hys with ⟨rfl, hys⟩ | ⟨text, page, rfl, htext, rfl⟩
    · simp only [obeys_bind]
      refine ⟨trivial, fun answer => ?_⟩
      cases answer with
      | error failure => exact .refused hzs hys failure
      | ok page =>
        simp only [obeys_done, obeys_bind]
        refine (storePage_transcript _ lifetime p.key page).mono fun us _ hus => ?_
        obtain ⟨c, rfl⟩ := hus
        rw [List.append_assoc]
        exact .kept hzs hys page c
    · exact .hit hzs htext

theorem writeThrough_transcript {op : Operation} {counter : String}
    (hcounter : counterOf op = some counter) :
    Obeys (fun _ _ => True) (WriteTranscript op counter) [] (writeThrough .direct .direct op) := by
  rw [writeThrough, obeys_bind]
  refine ⟨trivial, fun answer => ?_⟩
  cases answer with
  | error failure => exact .refused failure
  | ok answer =>
    simp only [obeys_done, hcounter, obeys_bind]
    refine (invalidate_transcript _ counter).mono fun xs _ hxs => ?_
    obtain ⟨n, rfl⟩ := hxs
    exact .carriedOut answer n

/-- **Every call to a repository with a cache takes one of the ways**, whatever it is answered. -/
theorem cached_transcript (lifetime : Duration) (op : Operation) :
    Obeys (fun _ _ => True) (Transcript lifetime op) [] (cached .direct .direct lifetime op) := by
  cases op with
  | list video limit offset => exact listCached_transcript lifetime video limit offset
  | create | update | delete | deleteByVideo =>
    exact (writeThrough_transcript rfl).mono fun _ _ h => ⟨_, rfl, h⟩

/-! ## What the transcripts hold -/

namespace CountersTranscript

variable {video : String} {limit offset : Int} {xs : List Exchange} {p? : Option PageName}

theorem filter_isStore (h : CountersTranscript video limit offset xs p?) :
    xs.filter Exchange.isStore = [] := by
  cases h <;> rfl

theorem filter_isSet (h : CountersTranscript video limit offset xs p?) :
    xs.filter Exchange.isSet = [] := by
  cases h <;> rfl

/-- No page is looked up before its name is known. -/
theorem get_page_notMem (h : CountersTranscript video limit offset xs p?) (q : PageName)
    (a : Except Failure (Option String)) : (⟨.cache (.get q.key), a⟩ : Exchange) ∉ xs := by
  have hg := q.key_ne_counter Cache.Key.isCounter_generation
  have hv := q.key_ne_counter (Cache.Key.isCounter_version video)
  cases h <;> simp [hg, hv]

/-- The page is the one that is listed. -/
theorem exists_eq {p : PageName} (h : CountersTranscript video limit offset xs (some p)) :
    ∃ g n, p = ⟨video, g, n, limit, offset⟩ := by
  cases h with
  | both => exact ⟨_, _, rfl⟩

/-- The numbers in a page's name were read from the counters. -/
theorem hasReadCounters {p : PageName} (h : CountersTranscript video limit offset xs (some p)) :
    HasReadCounters xs p := by
  cases h with
  | @both a b g n ha hb =>
    rcases a with failure | a
    · cases ha
    rcases b with failure | b
    · cases hb
    exact ⟨⟨a, by simp, ha⟩, ⟨b, by simp, hb⟩⟩

/-- What was read from the counters names the page, whatever follows but looks at no counter. -/
theorem eq_of_hasReadCounters (h : CountersTranscript video limit offset xs p?)
    {rest : List Exchange}
    (hrest : ∀ key, Cache.Key.IsCounter key → ∀ a, (⟨.cache (.get key), a⟩ : Exchange) ∉ rest)
    {g n : Int} (hread : HasReadCounters (xs ++ rest) ⟨video, g, n, limit, offset⟩) :
    p? = some ⟨video, g, n, limit, offset⟩ := by
  obtain ⟨⟨a', hamem, ha'⟩, ⟨b', hbmem, hb'⟩⟩ := hread
  replace hamem := (List.mem_append.1 hamem).resolve_right
    (hrest _ Cache.Key.isCounter_generation _)
  replace hbmem := (List.mem_append.1 hbmem).resolve_right
    (hrest _ (Cache.Key.isCounter_version video) _)
  have hne := Cache.Key.version_ne_generation video
  cases h with
  | @noGeneration a ha =>
    have heq : Except.ok a' = a := by simpa using hamem
    rw [← heq, counterRead, ha'] at ha
    cases ha
  | @noVersion a b _ ha hb =>
    have heq : Except.ok b' = b := by simpa [hne] using hbmem
    rw [← heq, counterRead, hb'] at hb
    cases hb
  | @both a b _ _ ha hb =>
    have haeq : Except.ok a' = a := by simpa [hne.symm] using hamem
    have hbeq : Except.ok b' = b := by simpa [hne] using hbmem
    rw [← haeq, counterRead, ha'] at ha
    rw [← hbeq, counterRead, hb'] at hb
    cases ha
    cases hb
    rfl

end CountersTranscript

namespace MissTranscript

variable {key : String} {ys : List Exchange}

theorem filter_isStore (h : MissTranscript key ys) : ys.filter Exchange.isStore = [] := by
  cases h <;> rfl

theorem filter_isSet (h : MissTranscript key ys) : ys.filter Exchange.isSet = [] := by
  cases h <;> rfl

/-- Nothing else is looked up. -/
theorem get_notMem (h : MissTranscript key ys) {other : String} (hne : other ≠ key)
    (a : Except Failure (Option String)) : (⟨.cache (.get other), a⟩ : Exchange) ∉ ys := by
  cases h <;> simp [hne]

/-- What was found is no page. -/
theorem decode?_eq_none (h : MissTranscript key ys) {text : String}
    (hmem : (⟨.cache (.get key), .ok (some text)⟩ : Exchange) ∈ ys) : Page.decode? text = none := by
  cases h with
  | failed failure => simp at hmem
  | absent => simp at hmem
  | @dropped found htext b =>
    have heq : text = found := by simpa using hmem
    rw [heq, htext]

end MissTranscript

end Repository

end VideoComments

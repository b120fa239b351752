import VideoComments.Proofs.Comment.Page
import VideoComments.Proofs.Program
import VideoComments.Proofs.Cache.Key
import VideoComments.Repository.Cached

/-!
# What a repository with a cache says and does

The contract that each call to a cached repository keeps to, whatever it is answered. It speaks of
one call alone, in terms of its exchanges so far.

* `Allowed`: a page is set only if the store answered it after both counters had been read, and then
  under the numbers that were read; only pages are deleted; a counter is incremented only after the
  store has carried out a write that it counts.
* `Justified`: a page that is listed was answered by the store, or was found under the numbers that
  the counters had been read to hold.
-/

namespace VideoComments.Repository

open Program
open Cache (PageName)

/-! ## The contract -/

/-- The number that is read from the answer to a look-up of a counter. -/
def counterValue : Option String → Option Int
  | none => some 0
  | some text => Decimal.int64? text.toList

/-- A counter was looked up and found to hold a number. -/
def HasRead (xs : List Exchange) (key : String) (i : Int) : Prop :=
  ∃ answer : Option String, (⟨.cache (.get key), .ok answer⟩ : Exchange) ∈ xs ∧
    counterValue answer = some i

theorem HasRead.mono {xs ys : List Exchange} (h : xs ⊆ ys) {key : String} {i : Int}
    (hread : HasRead xs key i) : HasRead ys key i := by
  obtain ⟨answer, hmem, hvalue⟩ := hread
  exact ⟨answer, h hmem, hvalue⟩

/-- Both counters that a page depends on were read, and held the numbers in its name. -/
def HasReadCounters (xs : List Exchange) (p : PageName) : Prop :=
  HasRead xs Cache.Key.generation p.generation ∧ HasRead xs (Cache.Key.version p.video) p.version

theorem HasReadCounters.mono {xs ys : List Exchange} (h : xs ⊆ ys) {p : PageName}
    (hread : HasReadCounters xs p) : HasReadCounters ys p :=
  ⟨hread.1.mono h, hread.2.mono h⟩

/-- The store's answer to the listing that a page is cached for. -/
def listed (p : PageName) (page : List Comment) : Exchange :=
  ⟨.store (.list p.video p.limit p.offset), .ok page⟩

/-- What a call to a repository with a cache may do after the exchanges `xs`. -/
def Allowed (op : Operation) (xs : List Exchange) : Call → Prop
  | .cache (.get _) => True
  | .cache (.set key value _) => ∃ (p : PageName) (page : List Comment) (ys zs : List Exchange),
    key = p.key ∧ value = Page.encode page ∧ xs = ys ++ listed p page :: zs ∧ HasReadCounters ys p
  | .cache (.delete key) => ∃ p : PageName, key = p.key
  | .cache (.increment key) => counterOf op = some key ∧
    ∃ answer : op.Answer, (⟨.store op, .ok answer⟩ : Exchange) ∈ xs
  | .store op' => op' = op
  | _ => False

/-- How a call to a repository with a cache may end after the exchanges `xs`. -/
def Justified : (op : Operation) → List Exchange → Except Failure op.Answer → Prop
  | .list video limit offset, xs, .ok page =>
    (⟨.store (.list video limit offset), .ok page⟩ : Exchange) ∈ xs ∨
      ∃ g n text,
        (⟨.cache (.get (Cache.Key.page video g n limit offset)), .ok (some text)⟩ : Exchange) ∈ xs ∧
        Page.decode? text = some page ∧ HasReadCounters xs ⟨video, g, n, limit, offset⟩
  | _, _, _ => True

/-! ## Its parts -/

variable (op : Operation) (xs : List Exchange)

theorem readCounter_obeys (key : String) :
    Obeys (Allowed op) (fun ys r => xs ⊆ ys ∧ ∀ i, r = .ok i → HasRead ys key i) xs
      (readCounter .direct key) := by
  rw [readCounter, obeys_bind]
  refine ⟨trivial, fun answer => ?_⟩
  have hsub := List.subset_append_left xs [⟨.cache (.get key), answer⟩]
  have hmem : (⟨.cache (.get key), answer⟩ : Exchange) ∈ xs ++ [⟨.cache (.get key), answer⟩] :=
    List.mem_append_right xs (List.mem_singleton_self _)
  cases answer with
  | error failure => exact ⟨hsub, fun i h => by cases h⟩
  | ok value? =>
    cases value? with
    | none =>
      refine ⟨hsub, fun i h => ?_⟩
      cases h
      exact ⟨none, hmem, rfl⟩
    | some value =>
      simp only [obeys_done]
      cases hvalue : Decimal.int64? value.toList with
      | none => exact ⟨hsub, fun i h => by cases h⟩
      | some i =>
        refine ⟨hsub, fun j h => ?_⟩
        cases h
        exact ⟨some value, hmem, hvalue⟩

theorem readCounters_obeys (video : String) :
    Obeys (Allowed op) (fun ys r => xs ⊆ ys ∧ ∀ g n, r = .ok (g, n) →
        HasRead ys Cache.Key.generation g ∧ HasRead ys (Cache.Key.version video) n) xs
      (readCounters .direct video) := by
  rw [readCounters, obeys_bind]
  refine (readCounter_obeys op xs Cache.Key.generation).mono fun ys r hr => ?_
  obtain ⟨hsub, hread⟩ := hr
  cases r with
  | error failure => exact ⟨hsub, fun g n h => by cases h⟩
  | ok g =>
    simp only [obeys_bind]
    refine (readCounter_obeys op ys (Cache.Key.version video)).mono fun zs r hr => ?_
    obtain ⟨hsub', hread'⟩ := hr
    cases r with
    | error failure => exact ⟨List.Subset.trans hsub hsub', fun g n h => by cases h⟩
    | ok n =>
      refine ⟨List.Subset.trans hsub hsub', fun g' n' h => ?_⟩
      cases h
      exact ⟨(hread g rfl).mono hsub', hread' n rfl⟩

theorem pageKey_obeys (video : String) (limit offset : Int) :
    Obeys (Allowed op) (fun ys r => ∀ key, r = some key → ∃ g n,
        key = Cache.Key.page video g n limit offset ∧
          HasReadCounters ys ⟨video, g, n, limit, offset⟩) xs
      (pageKey .direct video limit offset) := by
  rw [pageKey, obeys_bind]
  refine (readCounters_obeys op xs video).mono fun ys r hr => ?_
  obtain ⟨-, hread⟩ := hr
  cases r with
  | error failure => exact fun key h => by cases h
  | ok counters =>
    obtain ⟨g, n⟩ := counters
    intro key h
    cases h
    exact ⟨g, n, rfl, hread g n rfl⟩

theorem cachedPage_obeys (p : PageName) :
    Obeys (Allowed op) (fun ys r => xs ⊆ ys ∧ ∀ page, r = some page → ∃ text,
        (⟨.cache (.get p.key), .ok (some text)⟩ : Exchange) ∈ ys ∧ Page.decode? text = some page) xs
      (cachedPage .direct p.key) := by
  rw [cachedPage, obeys_bind]
  refine ⟨trivial, fun answer => ?_⟩
  have hsub := List.subset_append_left xs [⟨.cache (.get p.key), answer⟩]
  cases answer with
  | error failure => exact ⟨hsub, fun page h => by cases h⟩
  | ok text? =>
    cases text? with
    | none => exact ⟨hsub, fun page h => by cases h⟩
    | some text =>
      simp only [obeys_done]
      cases hpage : Page.decode? text with
      | some page =>
        refine ⟨hsub, fun page' h => ?_⟩
        cases h
        exact ⟨text, List.mem_append_right xs (List.mem_singleton_self _), hpage⟩
      | none =>
        simp only [dropPage, obeys_bind, obeys_log]
        refine ⟨⟨p, rfl⟩, fun answer => ?_⟩
        have hsub' := List.subset_append_of_subset_left [⟨.cache (.delete p.key), answer⟩] hsub
        cases answer with
        | error failure => exact ⟨hsub', fun page h => by cases h⟩
        | ok => exact ⟨hsub', fun page h => by cases h⟩

/-- A page may be set once the store has answered it after the counters were read. -/
theorem storePage_obeys (lifetime : Duration) {p : PageName} {page : List Comment}
    {ys zs : List Exchange} (hxs : xs = ys ++ listed p page :: zs) (hread : HasReadCounters ys p) :
    Obeys (Allowed op) (fun us _ => xs ⊆ us) xs (storePage .direct lifetime p.key page) := by
  rw [storePage, obeys_bind]
  refine ⟨⟨p, page, ys, zs, rfl, rfl, hxs, hread⟩, fun answer => ?_⟩
  cases answer with
  | error failure => exact List.subset_append_left xs _
  | ok => exact List.subset_append_left xs _

/-- A counter may be incremented once the write that it counts has succeeded. -/
theorem invalidate_obeys {counter : String} (hcounter : counterOf op = some counter)
    {answer : op.Answer} (hanswer : (⟨.store op, .ok answer⟩ : Exchange) ∈ xs) :
    Obeys (Allowed op) (fun _ _ => True) xs (invalidate .direct counter) := by
  rw [invalidate, obeys_bind]
  refine ⟨⟨hcounter, answer, hanswer⟩, fun answer => ?_⟩
  cases answer with
  | error failure => exact trivial
  | ok n => exact trivial

/-! ## Whole calls -/

theorem listCached_obeys (lifetime : Duration) (video : String) (limit offset : Int) :
    Obeys (Allowed (.list video limit offset)) (Justified (.list video limit offset)) []
      (listCached .direct .direct lifetime video limit offset) := by
  rw [listCached, obeys_bind]
  refine (pageKey_obeys _ [] video limit offset).mono fun xs key? hkey => ?_
  cases key? with
  | none =>
    refine ⟨rfl, fun answer => ?_⟩
    cases answer with
    | error failure => exact trivial
    | ok page => exact .inl (List.mem_append_right xs (List.mem_singleton_self _))
  | some key =>
    obtain ⟨g, n, rfl, hread⟩ := hkey key rfl
    simp only [obeys_bind]
    refine (cachedPage_obeys _ xs ⟨video, g, n, limit, offset⟩).mono fun ys page? hys => ?_
    obtain ⟨hsub, hpage⟩ := hys
    cases page? with
    | some page =>
      obtain ⟨text, hmem, hdecode⟩ := hpage page rfl
      exact .inr ⟨g, n, text, hmem, hdecode, hread.mono hsub⟩
    | none =>
      simp only [obeys_bind]
      refine ⟨rfl, fun answer => ?_⟩
      cases answer with
      | error failure => exact trivial
      | ok page =>
        simp only [obeys_done, obeys_bind]
        refine (storePage_obeys _ _ lifetime rfl (hread.mono hsub)).mono fun zs _ hzs => ?_
        exact .inl (hzs (List.mem_append_right ys (List.mem_singleton_self _)))

theorem writeThrough_obeys {counter : String} (hcounter : counterOf op = some counter) :
    Obeys (Allowed op) (fun _ _ => True) [] (writeThrough .direct .direct op) := by
  rw [writeThrough, obeys_bind]
  refine ⟨rfl, fun answer => ?_⟩
  cases answer with
  | error failure => exact trivial
  | ok answer =>
    simp only [obeys_done, hcounter, obeys_bind]
    exact invalidate_obeys op _ hcounter (List.mem_singleton_self _)

/-- **Every call to a repository with a cache keeps to the contract.** -/
theorem cached_obeys (lifetime : Duration) :
    Obeys (Allowed op) (Justified op) [] (cached .direct .direct lifetime op) := by
  cases op with
  | list video limit offset => exact listCached_obeys lifetime video limit offset
  | create comment => exact (writeThrough_obeys (.create comment) rfl).mono fun _ _ _ => trivial
  | update comment => exact (writeThrough_obeys (.update comment) rfl).mono fun _ _ _ => trivial
  | delete id => exact (writeThrough_obeys (.delete id) rfl).mono fun _ _ _ => trivial
  | deleteByVideo video =>
    exact (writeThrough_obeys (.deleteByVideo video) rfl).mono fun _ _ _ => trivial

end VideoComments.Repository

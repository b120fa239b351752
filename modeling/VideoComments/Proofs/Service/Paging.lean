import VideoComments.Proofs.Service.Board

/-!
# Turning pages

The comments on a video are asked for page by page: under one limit, with a multiple of it as the
offset, until a page is shorter than the limit (`Turns`). Nothing is lost and nothing is repeated on
the way: the pages make up what is listed without limit and offset, and the order in which the rows
are kept does not matter. `Paged` says so of any way of listing, and `listings_are_paged` of the
repositories over a store and of the service.
-/

namespace VideoComments

/-! ## The rows that are listed -/

/-- Does a row come strictly earlier than another in a listing? -/
def Row.Before (a b : Row) : Prop :=
  a.createdAt < b.createdAt ∨ a.createdAt = b.createdAt ∧ a.id.toNat < b.id.toNat

namespace Table

/-- Rows with different identifiers are listed in strict order. -/
theorem pairwise_before_ofVideo {t : Table} (hids : (t.rows.map Row.id).Nodup) (video : String) :
    (t.ofVideo video).Pairwise Row.Before := by
  have hdistinct : ((t.ofVideo video).map Row.id).Nodup :=
    (((List.mergeSort_perm _ _).map Row.id).nodup_iff).2
      (hids.sublist (List.filter_sublist.map Row.id))
  refine ((pairwise_ofVideo t video).and (List.pairwise_map.1 hdistinct)).imp ?_
  rintro a b ⟨hprecedes, hid⟩
  have hne : a.id.toNat ≠ b.id.toNat := fun h => hid (congrArg Uuid.mk (BitVec.eq_of_toNat_eq h))
  rw [Row.precedes_iff] at hprecedes
  unfold Row.Before
  omega

/-- The order in which rows with different identifiers are kept does not matter to listings. -/
theorem ofVideo_congr {t t' : Table} (hids : (t.rows.map Row.id).Nodup)
    (hperm : t'.rows.Perm t.rows) (video : String) : t'.ofVideo video = t.ofVideo video := by
  have hlisted : (t.ofVideo video).Perm (t.rows.filter fun r => r.video = video) :=
    List.mergeSort_perm _ _
  refine ofVideo_eq_of_perm ?_ (pairwise_ofVideo t video) ((hperm.filter _).trans hlisted.symm)
  exact ((hlisted.map Row.id).nodup_iff).2 (hids.sublist (List.filter_sublist.map Row.id))

/-! ## Pages of rows -/

section Page

variable {α : Type} {limit offset : Int} (rows : List α)

theorem page_of_limit_nonpos (h : limit ≤ 0) : page limit offset rows = rows.drop offset.toNat := by
  rw [page, if_neg (by omega)]

theorem page_of_limit_pos (h : 0 < limit) :
    page limit offset rows = (rows.drop offset.toNat).take limit.toNat := by
  rw [page, if_pos h]

theorem page_of_length_le {rows : List α} (h : rows.length ≤ offset) :
    page limit offset rows = [] := by
  have hdrop : rows.drop offset.toNat = [] := List.drop_eq_nil_iff.2 (by omega)
  rw [page, hdrop, List.take_nil, ite_self]

end Page

end Table

/-! ## The comments of rows, as a caller sees them -/

namespace Operation

variable {α : Type} (view : Comment → α)

/-- The comments of rows as `view` shows them; the first row that holds none decides the failure. -/
def viewed (rows : List Row) : Except Failure (List α) := (comments rows).map (List.map view)

/-- Rows are read one after the other. -/
theorem viewed_append (rows more : List Row) :
    viewed view (rows ++ more) =
      viewed view rows >>= fun xs => (viewed view more).map fun ys => xs ++ ys := by
  unfold viewed comments
  rw [List.mapM_append]
  cases rows.mapM Row.comment with
  | error e => rfl
  | ok cs =>
    cases more.mapM Row.comment with
    | error e => rfl
    | ok ds => exact congrArg Except.ok List.map_append

theorem viewed_append_of_ok {rows : List Row} {xs : List α} (h : viewed view rows = .ok xs)
    (more : List Row) :
    viewed view (rows ++ more) = (viewed view more).map fun ys => xs ++ ys := by
  rw [viewed_append, h]
  rfl

theorem viewed_append_of_error {rows : List Row} {failure : Failure}
    (h : viewed view rows = .error failure) (more : List Row) :
    viewed view (rows ++ more) = .error failure := by
  rw [viewed_append, h]
  rfl

/-- A row has one comment. -/
theorem length_of_viewed {rows : List Row} {xs : List α} (h : viewed view rows = .ok xs) :
    xs.length = rows.length := by
  induction rows generalizing xs with
  | nil =>
    cases h
    rfl
  | cons r rows ih =>
    rw [← List.singleton_append, viewed_append] at h
    cases hr : r.comment with
    | error e =>
      have hfails : viewed view [r] = .error (.database e) := by
        rw [viewed, comments, List.mapM_cons, hr]
        rfl
      rw [hfails] at h
      cases h
    | ok c =>
      have hone : viewed view [r] = .ok [view c] := by
        rw [viewed, comments, List.mapM_cons, hr]
        rfl
      rw [hone] at h
      cases hmore : viewed view rows with
      | error e =>
        rw [hmore] at h
        cases h
      | ok ys =>
        rw [hmore] at h
        cases h
        exact congrArg Nat.succ (ih hmore)

end Operation

/-! ## Turning pages -/

/-- How turning pages ends. -/
inductive Ending (α : Type)
  /-- With a page that is shorter than the limit. -/
  | short (page : List α)
  | failed (failure : Failure)
  /-- With an offset that cannot be asked for. -/
  | outOfRange

/-- The pages `pages` are full, and what comes after them ends the turning. Page `k` is asked for
with `k` times the limit as the offset, if `num` takes some offset for that number. -/
inductive Turns {α ι : Type} (num : ι → Int) (fetch : Nat → ι → Except Failure (List α))
    (limit : Int) : Nat → List (List α) → Ending α → Prop
  | short {k : Nat} {offset : ι} {page : List α} (hoffset : num offset = k * limit)
      (h : fetch k offset = .ok page) (hshort : page.length < limit) :
      Turns num fetch limit k [] (.short page)
  | failed {k : Nat} {offset : ι} {failure : Failure} (hoffset : num offset = k * limit)
      (h : fetch k offset = .error failure) : Turns num fetch limit k [] (.failed failure)
  | outOfRange {k : Nat} (h : ∀ offset, num offset ≠ k * limit) :
      Turns num fetch limit k [] .outOfRange
  | full {k : Nat} {offset : ι} {page : List α} {pages : List (List α)} {ending : Ending α}
      (hoffset : num offset = k * limit) (h : fetch k offset = .ok page)
      (hfull : limit ≤ page.length) (hrest : Turns num fetch limit (k + 1) pages ending) :
      Turns num fetch limit k (page :: pages) ending

/-- Full pages and what comes after them make up a whole. -/
def Ending.Completes {α : Type} (pages : List (List α)) (whole : Except Failure (List α)) :
    Ending α → Prop
  | .short page => whole = .ok (pages.flatten ++ page)
  | .failed failure => whole = .error failure
  | .outOfRange => ∀ all, whole = .ok all → pages.flatten <+: all

/-- One more page in front. -/
theorem Ending.Completes.cons {α : Type} {pages : List (List α)} {rest : Except Failure (List α)}
    {ending : Ending α} (h : ending.Completes pages rest) (page : List α) :
    ending.Completes (page :: pages) (rest.map fun all => page ++ all) := by
  cases ending with
  | short last =>
    obtain rfl : rest = _ := h
    simp [Completes, Except.map]
  | failed failure =>
    obtain rfl : rest = _ := h
    rfl
  | outOfRange =>
    intro all hall
    cases rest with
    | error e => cases hall
    | ok more =>
      cases hall
      exact (List.prefix_append_right_inj page).2 (h more rfl)

section Turning

variable {α ι : Type} {num : ι → Int} {view : Comment → α} {rows : List Row}
  {fetch : Nat → ι → Except Failure (List α)} {limit : Nat}

/-- Every page that is fetched is the part of the rows that it should be. -/
def FetchesPages (num : ι → Int) (view : Comment → α) (rows : List Row)
    (fetch : Nat → ι → Except Failure (List α)) (limit : Nat) : Prop :=
  ∀ (k : Nat) (offset : ι), num offset = k * limit →
    fetch k offset = Operation.viewed view ((rows.drop (k * limit)).take limit)

/-- The rows from page `k` on are those of page `k` and those from the next page on. -/
theorem drop_eq_take_append_drop {β : Type} (xs : List β) (k limit : Nat) :
    xs.drop (k * limit) =
      (xs.drop (k * limit)).take limit ++ xs.drop ((k + 1) * limit) := by
  rw [Nat.succ_mul, ← List.drop_drop, List.take_append_drop]

/-- **Full pages have the length of the limit, and the pages make up the rows** from the first of
them on. -/
theorem Turns.completes (hfetch : FetchesPages num view rows fetch limit) {k : Nat}
    {pages : List (List α)} {ending : Ending α} (h : Turns num fetch limit k pages ending) :
    (∀ page ∈ pages, page.length = limit) ∧
      ending.Completes pages (Operation.viewed view (rows.drop (k * limit))) := by
  induction h with
  | @short k offset page hoffset hpage hshort =>
    refine ⟨List.forall_mem_nil _, ?_⟩
    rw [hfetch k offset hoffset] at hpage
    have hlength := Operation.length_of_viewed view hpage
    rw [List.length_take] at hlength
    -- A page that is shorter than the limit has taken all rows that are left.
    rw [List.take_of_length_le (by omega)] at hpage
    exact hpage
  | @failed k offset failure hoffset hpage =>
    refine ⟨List.forall_mem_nil _, ?_⟩
    rw [hfetch k offset hoffset] at hpage
    rw [drop_eq_take_append_drop]
    exact Operation.viewed_append_of_error view hpage _
  | outOfRange => exact ⟨List.forall_mem_nil _, fun all _ => List.nil_prefix⟩
  | @full k offset page pages ending hoffset hpage hfull _ ih =>
    rw [hfetch k offset hoffset] at hpage
    have hlength := Operation.length_of_viewed view hpage
    rw [List.length_take] at hlength
    refine ⟨List.forall_mem_cons.2 ⟨by omega, ih.1⟩, ?_⟩
    rw [drop_eq_take_append_drop, Operation.viewed_append_of_ok view hpage]
    exact ih.2.cons page

/-- **Turning pages ends**, since every full page leaves fewer rows. -/
theorem exists_turns (hlimit : 0 < limit) (hfetch : FetchesPages num view rows fetch limit)
    (k : Nat) : ∃ pages ending, Turns num fetch limit k pages ending := by
  induction hleft : rows.length - k * limit using Nat.strong_induction_on generalizing k with
  | _ left ih =>
    by_cases hasked : ∃ offset, num offset = k * limit
    · obtain ⟨offset, hoffset⟩ := hasked
      cases hpage : fetch k offset with
      | error failure => exact ⟨[], _, .failed hoffset hpage⟩
      | ok page =>
        by_cases hshort : page.length < limit
        · exact ⟨[], _, .short hoffset hpage (by exact_mod_cast hshort)⟩
        · have hviewed := (hfetch k offset hoffset).symm.trans hpage
          have hlength := Operation.length_of_viewed view hviewed
          rw [List.length_take, List.length_drop] at hlength
          have hfull : limit ≤ page.length := not_lt.1 hshort
          have hfewer : rows.length - (k + 1) * limit < left := by
            rw [Nat.succ_mul]
            omega
          obtain ⟨pages, ending, hrest⟩ := ih _ hfewer (k + 1) rfl
          exact ⟨page :: pages, ending, .full hoffset hpage (by exact_mod_cast hfull) hrest⟩
    · push Not at hasked
      exact ⟨[], _, .outOfRange hasked⟩

end Turning

/-! ## Ways of listing -/

/-- The table has these rows, in whatever order, and the store does not fail. -/
structure World.Stores (w : World) (store : StoreKind) (rows : List Row) : Prop where
  rows : w.table.rows.Perm rows
  fault : store.fault w = none

/-- A way of listing loses and repeats nothing of `rows`, whose comments `view` shows, in all worlds
that are `there`. Limits and offsets stand for the numbers that `num` takes them for. -/
structure Paged {α ι : Type} [OfNat ι 0] (num : ι → Int) (view : Comment → α) (rows : List Row)
    (there : World → Prop) (list : World → ι → ι → Except Failure (List α)) : Prop where
  /-- Without limit and offset every row is listed. -/
  whole : ∀ w, there w → list w 0 0 = Operation.viewed view rows
  /-- The answers are the same in all these worlds. -/
  same : ∀ w w', there w → there w' → ∀ limit offset, list w limit offset = list w' limit offset
  /-- A limit that is not positive is none. -/
  unlimited : ∀ w, there w → ∀ limit offset, num limit ≤ 0 →
    list w limit offset = list w 0 offset
  /-- A negative offset is none. -/
  fromStart : ∀ w, there w → ∀ limit offset, num offset < 0 →
    list w limit offset = list w limit 0
  /-- Behind the last row there is nothing. -/
  past : ∀ w, there w → ∀ limit offset, rows.length ≤ num offset → list w limit offset = .ok []
  /-- Turning pages ends, even if every page is asked for in a world of its own. All pages but the
  last have the length of the limit, and together they are what is listed without limit and
  offset. -/
  turned : ∀ ws : Nat → World, (∀ k, there (ws k)) → ∀ limit, 1 ≤ num limit →
    (∃ pages ending, Turns num (fun k => list (ws k) limit) (num limit) 0 pages ending) ∧
    ∀ pages ending, Turns num (fun k => list (ws k) limit) (num limit) 0 pages ending →
      (∀ page ∈ pages, page.length = num limit) ∧
        ∀ w, there w → ending.Completes pages (list w 0 0)

/-- A way of listing that answers the pages of the rows loses and repeats nothing. -/
theorem Paged.of_page {α ι : Type} [OfNat ι 0] {num : ι → Int} {view : Comment → α}
    {rows : List Row} {there : World → Prop} {list : World → ι → ι → Except Failure (List α)}
    (hzero : num 0 = 0) (hlist : ∀ w, there w → ∀ limit offset, list w limit offset =
      Operation.viewed view (Table.page (num limit) (num offset) rows)) :
    Paged num view rows there list where
  whole w hw := by
    rw [hlist w hw, hzero, Table.page_of_limit_nonpos rows le_rfl]
    rfl
  same w w' hw hw' limit offset := by rw [hlist w hw, hlist w' hw']
  unlimited w hw limit offset h := by
    rw [hlist w hw, hlist w hw, Table.page_of_limit_nonpos rows h, hzero,
      Table.page_of_limit_nonpos rows le_rfl]
  fromStart w hw limit offset h := by
    have hstart : (num offset).toNat = (num 0).toNat := by omega
    rw [hlist w hw, hlist w hw, Table.page, Table.page, hstart]
  past w hw limit offset h := by
    rw [hlist w hw, Table.page_of_length_le h]
    rfl
  turned ws hws limit hlimit := by
    obtain ⟨n, hn⟩ := Int.eq_ofNat_of_zero_le (show 0 ≤ num limit by omega)
    have hfetch : FetchesPages num view rows (fun k => list (ws k) limit) n := by
      intro k offset hoffset
      have hskipped : (num offset).toNat = k * n := by
        rw [hoffset]
        exact_mod_cast Int.toNat_natCast (k * n)
      refine (hlist (ws k) (hws k) limit offset).trans ?_
      rw [Table.page_of_limit_pos rows (by omega), hskipped, hn, Int.toNat_natCast]
    rw [hn]
    refine ⟨exists_turns (by omega) hfetch 0, fun pages ending hturns => ?_⟩
    obtain ⟨hlengths, hcompletes⟩ := hturns.completes hfetch
    rw [Nat.zero_mul, List.drop_zero] at hcompletes
    refine ⟨fun page hpage => congrArg Nat.cast (hlengths page hpage), fun w hw => ?_⟩
    rw [hlist w hw, hzero, Table.page_of_limit_nonpos rows le_rfl]
    exact hcompletes

/-! ## The repositories and the service -/

/-- A listing by the repository over a store. -/
def StoreKind.listed (store : StoreKind) (video : String) (w : World) (limit offset : Int) :
    Except Failure (List Comment) :=
  ((store.repository (.list video limit offset)).run World.handler w).1

/-- A listing by the service, in the comments of its response. -/
def Service.listed (store : StoreKind) (video : String) (w : World) (limit offset : Int32) :
    Except Failure (List Rpc.CommentInfo) :=
  ((call store.repository (.list { video, limit, offset })).run World.handler w).1.map
    Rpc.ListCommentResponse.comments

theorem StoreKind.listed_eq {store : StoreKind} {w : World} (hfault : store.fault w = none)
    (video : String) (limit offset : Int) :
    store.listed video w limit offset =
      Operation.viewed id (Table.page limit offset (w.table.ofVideo video)) := by
  rw [listed, (store.repository_does (.list video limit offset) w).answer,
    effect_of_fault_eq_none hfault, Operation.viewed, List.map_id_fun, Except.map_id]
  rfl

theorem Service.listed_eq {store : StoreKind} {w : World} (hfault : store.fault w = none)
    (video : String) (limit offset : Int32) :
    listed store video w limit offset = Operation.viewed Rpc.CommentInfo.ofComment
      (Table.page limit.toInt offset.toInt (w.table.ofVideo video)) := by
  rw [listed, (call_of_ask w _ (work_list store.repository _)).1,
    StoreKind.effect_of_fault_eq_none hfault, Operation.viewed, Operation.apply]
  cases Operation.comments (Table.page limit.toInt offset.toInt (w.table.ofVideo video)) <;> rfl

/-- **Paging loses no comment and repeats none.** If identifiers are distinct, the rows of a video
come in one order, by time of creation and then by identifier, however they are kept. The
repositories and the service page through them in that order. -/
theorem listings_are_paged (store : StoreKind) (rows : List Row) (hids : (rows.map Row.id).Nodup)
    (video : String) :
    ∃ listed : List Row,
      listed.Perm (rows.filter fun r => r.video = video) ∧ listed.Pairwise Row.Before ∧
      ((∀ r ∈ rows, r.content.isSome) →
        Operation.comments listed = .ok (listed.map Row.toComment)) ∧
      Paged id id listed (fun w => w.Stores store rows) (store.listed video) ∧
      Paged Int32.toInt Rpc.CommentInfo.ofComment listed (fun w => w.Stores store rows)
        (Service.listed store video) := by
  have hsame : ∀ w : World, w.Stores store rows →
      w.table.ofVideo video = ({ rows } : Table).ofVideo video := fun w hw =>
    Table.ofVideo_congr hids hw.rows video
  refine ⟨({ rows } : Table).ofVideo video, List.mergeSort_perm _ _,
    Table.pairwise_before_ofVideo hids video, fun hcontents => ?_, .of_page rfl fun w hw => ?_,
    .of_page rfl fun w hw => ?_⟩
  · exact Operation.comments_eq_ok fun r hr => hcontents r (Table.mem_ofVideo.1 hr).1
  · intro limit offset
    rw [StoreKind.listed_eq hw.fault, hsame w hw]
    rfl
  · intro limit offset
    rw [Service.listed_eq hw.fault, hsame w hw]

/-- Two comments on a video are listed whole and in pages of one. -/
theorem listings_are_paged_two :
    (Service.threeComments.table.rows.map Row.id).Nodup ∧
    Service.threeComments.Stores .database Service.threeComments.table.rows ∧
    Turns id (fun _ => StoreKind.listed .database "a" Service.threeComments 1) 1 0
      [[⟨.numbered 1, "a", "first"⟩], [⟨.numbered 3, "a", "third"⟩]] (.short []) ∧
    StoreKind.listed .database "a" Service.threeComments 0 0 =
      .ok [⟨.numbered 1, "a", "first"⟩, ⟨.numbered 3, "a", "third"⟩] := by
  have hids : (Service.threeComments.table.rows.map Row.id).Nodup := by decide
  have hstores : Service.threeComments.Stores .database Service.threeComments.table.rows :=
    ⟨List.Perm.refl _, rfl⟩
  have hlisted : ∀ limit offset, StoreKind.listed .database "a" Service.threeComments limit offset =
      Operation.viewed id (Table.page limit offset
        [⟨.numbered 1, "a", some "first", 0⟩, ⟨.numbered 3, "a", some "third", 2⟩]) := by
    intro limit offset
    rw [StoreKind.listed_eq hstores.fault]
    exact congrArg (fun rows => Operation.viewed id (Table.page limit offset rows))
      (Table.ofVideo_eq_of_perm (by decide) (by decide) (by decide))
  have hturns : Turns id (fun _ => StoreKind.listed .database "a" Service.threeComments 1) 1 0
      [[⟨.numbered 1, "a", "first"⟩], [⟨.numbered 3, "a", "third"⟩]] (.short []) :=
    .full (by decide : (0 : Int) = _) (hlisted 1 0) (by decide)
      (.full (by decide : (1 : Int) = _) (hlisted 1 1) (by decide)
        (.short (by decide : (2 : Int) = _) (hlisted 1 2) (by decide)))
  obtain ⟨_, -, -, -, hpaged, -⟩ :=
    listings_are_paged .database Service.threeComments.table.rows hids "a"
  exact ⟨hids, hstores, hturns,
    ((hpaged.turned (fun _ => Service.threeComments) (fun _ => hstores) 1 (by decide)).2 _ _
      hturns).2 _ hstores⟩

end VideoComments

import Mathlib.Data.List.Nodup
import Mathlib.Data.List.Sort
import VideoComments.Repository.Operation

/-!
# What writing does to listings

* Writing to one video leaves the listings of the others alone (`ofVideo_insert_of_ne`,
  `ofVideo_removeVideo_of_ne`).
* In a table that is `Sound` a new row comes last in the listing of its video (`ofVideo_insert`),
  setting content changes one entry in its place (`ofVideo_setContent`), and removing a row keeps
  the order of the rest (`ofVideo_remove`).
* Whatever is done to a sound table, it stays sound (`Sound.apply`).
-/

namespace VideoComments

/-! ## The order of a listing -/

namespace Row

theorem precedes_iff {a b : Row} : a.precedes b = true ↔
    a.createdAt < b.createdAt ∨ a.createdAt = b.createdAt ∧ a.id.toNat ≤ b.id.toNat := by
  simp [precedes]

theorem precedes_trans (a b c : Row) (hab : a.precedes b = true) (hbc : b.precedes c = true) :
    a.precedes c = true := by
  rw [precedes_iff] at *
  omega

theorem precedes_total (a b : Row) : (a.precedes b || b.precedes a) = true := by
  rw [Bool.or_eq_true, precedes_iff, precedes_iff]
  omega

/-- Rows that precede each other carry the same identifier. -/
theorem id_eq_of_precedes {a b : Row} (hab : a.precedes b = true) (hba : b.precedes a = true) :
    a.id = b.id := by
  rw [precedes_iff] at hab hba
  have hid : a.id.toNat = b.id.toNat := by omega
  exact congrArg Uuid.mk (BitVec.eq_of_toNat_eq hid)

end Row

namespace Table

theorem mem_of_mem_page {α : Type} {limit offset : Int} {rows : List α} {r : α}
    (h : r ∈ page limit offset rows) : r ∈ rows := by
  unfold page at h
  split at h
  · exact List.mem_of_mem_drop (List.mem_of_mem_take h)
  · exact List.mem_of_mem_drop h

theorem map_page {α β : Type} (f : α → β) (limit offset : Int) (rows : List α) :
    (page limit offset rows).map f = page limit offset (rows.map f) := by
  unfold page
  split
  · rw [List.map_take, List.map_drop]
  · rw [List.map_drop]

theorem mem_ofVideo {t : Table} {video : String} {r : Row} :
    r ∈ t.ofVideo video ↔ r ∈ t.rows ∧ r.video = video := by
  simp [ofVideo]

/-- Rows with different identifiers can be listed in one order only. -/
theorem ofVideo_eq_of_perm {t : Table} {video : String} {rows : List Row}
    (hids : (rows.map Row.id).Nodup) (hsorted : rows.Pairwise fun a b => a.precedes b)
    (hperm : (t.rows.filter fun r => r.video = video).Perm rows) : t.ofVideo video = rows := by
  have hpairwise := List.pairwise_mergeSort Row.precedes_trans Row.precedes_total
    (t.rows.filter fun r => r.video = video)
  refine List.Perm.eq_of_pairwise ?_ hpairwise hsorted ((List.mergeSort_perm _ _).trans hperm)
  intro a b ha hb hab hba
  have ha : a ∈ rows := hperm.mem_iff.1 (List.mem_mergeSort.1 ha)
  exact List.inj_on_of_nodup_map hids ha hb (Row.id_eq_of_precedes hab hba)

theorem pairwise_ofVideo (t : Table) (video : String) :
    (t.ofVideo video).Pairwise fun a b => a.precedes b :=
  List.pairwise_mergeSort Row.precedes_trans Row.precedes_total _

/-! ## Other videos -/

theorem ofVideo_insert_of_ne (t : Table) {video other : String} (h : other ≠ video) (id : Uuid)
    (content : String) : (t.insert id video content).ofVideo other = t.ofVideo other := by
  simp [ofVideo, insert, insertAt, h.symm]

theorem ofVideo_removeVideo (t : Table) (video : String) :
    (t.remove fun r => r.video = video).ofVideo video = [] := by
  rw [ofVideo, remove, List.filter_filter, List.filter_eq_nil_iff.2, List.mergeSort_nil]
  simp

theorem ofVideo_removeVideo_of_ne (t : Table) {video other : String} (h : other ≠ video) :
    (t.remove fun r => r.video = video).ofVideo other = t.ofVideo other := by
  have hfilter : ((t.remove fun r => r.video = video).rows.filter fun r => r.video = other) =
      t.rows.filter fun r => r.video = other := by
    rw [remove, List.filter_filter]
    refine List.filter_congr fun r _ => ?_
    by_cases hr : r.video = other <;> simp [hr, h]
  rw [ofVideo, hfilter, ofVideo]

/-! ## Writes that find nothing -/

theorem count_id_eq_zero {t : Table} {id : Uuid} :
    t.count (·.id = id) = 0 ↔ ∀ r ∈ t.rows, r.id ≠ id := by
  simp only [count, List.countP_eq_zero, decide_eq_true_eq, ne_eq]

theorem exists_of_count_id_ne_zero {t : Table} {id : Uuid} (h : ¬ t.count (·.id = id) = 0) :
    ∃ r ∈ t.rows, r.id = id := by
  rw [count_id_eq_zero] at h
  push Not at h
  exact h

theorem setContent_of_count_eq_zero {t : Table} {id : Uuid} (h : t.count (·.id = id) = 0)
    (content : String) : t.setContent id content = t := by
  have hrows : ∀ r ∈ t.rows, (if r.id = id then { r with content := some content } else r) = r :=
    fun r hr => if_neg (count_id_eq_zero.1 h r hr)
  rw [setContent, List.map_congr_left hrows, List.map_id']

theorem remove_of_count_eq_zero {t : Table} {p : Row → Bool} (h : t.count p = 0) :
    t.remove p = t := by
  rw [remove, List.filter_eq_self.2 fun r hr => by simpa using List.countP_eq_zero.1 h r hr]

/-! ## Sound tables -/

/-- A table that only the service writes to. -/
structure Sound (t : Table) : Prop where
  /-- Identifiers are distinct. -/
  ids : (t.rows.map Row.id).Nodup
  /-- No content is missing. -/
  contents : ∀ r ∈ t.rows, r.content.isSome
  /-- The next row is created later than those that are there. -/
  times : ∀ r ∈ t.rows, r.createdAt < t.next

theorem sound_empty : ({} : Table).Sound := by
  refine ⟨List.nodup_nil, ?_, ?_⟩ <;> simp

namespace Sound

variable {t : Table}

theorem ids_ofVideo (h : t.Sound) (video : String) : ((t.ofVideo video).map Row.id).Nodup :=
  (((List.mergeSort_perm _ _).map Row.id).nodup_iff).2
    (h.ids.sublist (List.filter_sublist.map Row.id))

/-- **A new row comes last in the listing of its video.** -/
theorem ofVideo_insert (h : t.Sound) {id : Uuid} (hid : ∀ r ∈ t.rows, r.id ≠ id)
    (video content : String) :
    (t.insert id video content).ofVideo video =
      t.ofVideo video ++ [{ id, video, content := some content, createdAt := t.next }] := by
  refine ofVideo_eq_of_perm ?_ ?_ ?_
  · rw [List.map_append, List.map_singleton, List.nodup_append]
    refine ⟨h.ids_ofVideo video, List.nodup_singleton _, ?_⟩
    rintro a ha b hb rfl
    obtain ⟨r, hr, rfl⟩ := List.mem_map.1 ha
    exact hid r (mem_ofVideo.1 hr).1 (List.mem_singleton.1 hb)
  · refine List.pairwise_append.2 ⟨pairwise_ofVideo t video, List.pairwise_singleton _ _, ?_⟩
    rintro a ha b hb
    rw [List.mem_singleton.1 hb, Row.precedes_iff]
    exact .inl (h.times a (mem_ofVideo.1 ha).1)
  · rw [insert, insertAt, List.filter_append, List.filter_singleton, decide_eq_true rfl]
    exact (List.mergeSort_perm _ _).symm.append_right _

/-- **Removing a row keeps the order of the rest.** -/
theorem ofVideo_remove (h : t.Sound) (p : Row → Bool) (video : String) :
    (t.remove p).ofVideo video = (t.ofVideo video).filter fun r => !p r := by
  refine ofVideo_eq_of_perm ?_ ((pairwise_ofVideo t video).filter _) ?_
  · exact (h.ids_ofVideo video).sublist (List.filter_sublist.map Row.id)
  · rw [remove, List.filter_filter, List.filter_congr fun r _ => Bool.and_comm _ _,
      ← List.filter_filter]
    exact ((List.mergeSort_perm _ _).filter _).symm

end Sound

/-- A row has its own place in the listing of its video, and an identifier of its own. -/
theorem Sound.exists_split {t : Table} (h : t.Sound) {r : Row} (hr : r ∈ t.rows) :
    ∃ as bs, t.ofVideo r.video = as ++ r :: bs ∧ ∀ s ∈ as ++ bs, s.id ≠ r.id := by
  obtain ⟨as, bs, hsplit⟩ := List.append_of_mem (mem_ofVideo.2 ⟨hr, rfl⟩)
  have hids := h.ids_ofVideo r.video
  rw [hsplit, List.map_append, List.map_cons, List.nodup_middle, ← List.map_append] at hids
  refine ⟨as, bs, hsplit, fun s hs heq => (List.nodup_cons.1 hids).1 ?_⟩
  exact List.mem_map.2 ⟨s, hs, heq⟩

theorem Sound.eq_of_id_eq {t : Table} (h : t.Sound) {r s : Row} (hr : r ∈ t.rows) (hs : s ∈ t.rows)
    (hid : r.id = s.id) : r = s :=
  List.inj_on_of_nodup_map h.ids hr hs hid

/-- **Setting content changes entries in their places.** -/
theorem ofVideo_setContent (t : Table) (id : Uuid) (content video : String) :
    (t.setContent id content).ofVideo video = (t.ofVideo video).map fun r =>
      if r.id = id then { r with content := some content } else r := by
  rw [ofVideo, ofVideo, List.map_mergeSort, setContent, List.filter_map]
  · congr 2
    refine List.filter_congr fun r _ => ?_
    simp only [Function.comp]
    split <;> rfl
  · intro a _ b _
    simp only [Row.precedes]
    split <;> split <;> rfl

/-! ## Sound tables stay sound -/

theorem Sound.insert {t : Table} (h : t.Sound) {id : Uuid} (hid : ∀ r ∈ t.rows, r.id ≠ id)
    (video content : String) : (t.insert id video content).Sound := by
  refine ⟨?_, ?_, ?_⟩
  · rw [Table.insert, insertAt, List.map_append, List.map_singleton, List.nodup_append]
    refine ⟨h.ids, List.nodup_singleton _, ?_⟩
    rintro a ha b hb rfl
    obtain ⟨r, hr, rfl⟩ := List.mem_map.1 ha
    exact hid r hr (List.mem_singleton.1 hb)
  · intro r hr
    rcases List.mem_append.1 hr with hr | hr
    · exact h.contents r hr
    · rw [List.mem_singleton.1 hr]
      rfl
  · intro r hr
    simp only [Table.insert, insertAt, max_self]
    rcases List.mem_append.1 hr with hr | hr
    · exact Int.lt_add_one_of_le (h.times r hr).le
    · rw [List.mem_singleton.1 hr]
      exact Int.lt_add_one_of_le le_rfl

theorem Sound.setContent {t : Table} (h : t.Sound) (id : Uuid) (content : String) :
    (t.setContent id content).Sound := by
  refine ⟨?_, ?_, ?_⟩
  · have hids : (t.setContent id content).rows.map Row.id = t.rows.map Row.id := by
      rw [Table.setContent, List.map_map]
      refine List.map_congr_left fun r _ => ?_
      simp only [Function.comp]
      split <;> rfl
    exact hids ▸ h.ids
  · intro r hr
    obtain ⟨s, hs, rfl⟩ := List.mem_map.1 hr
    split
    · rfl
    · exact h.contents s hs
  · intro r hr
    obtain ⟨s, hs, rfl⟩ := List.mem_map.1 hr
    split
    · exact h.times s hs
    · exact h.times s hs

theorem Sound.remove {t : Table} (h : t.Sound) (p : Row → Bool) : (t.remove p).Sound where
  ids := h.ids.sublist (List.filter_sublist.map Row.id)
  contents r hr := h.contents r (List.mem_of_mem_filter hr)
  times r hr := h.times r (List.mem_of_mem_filter hr)

/-- **Whatever is done to a sound table, it stays sound.** -/
theorem Sound.apply {t : Table} (h : t.Sound) (op : Operation) {fresh : Uuid}
    (hfresh : ∀ comment, op = .create comment → ∀ r ∈ t.rows, r.id ≠ fresh) :
    (op.apply fresh t).2.Sound := by
  cases op with
  | list video limit offset => exact h
  | create comment => exact h.insert (hfresh comment rfl) comment.video comment.content
  | update comment =>
    simp only [Operation.apply]
    split
    · exact h
    · exact h.setContent comment.id comment.content
  | delete id =>
    simp only [Operation.apply]
    split
    · exact h
    · exact h.remove _
  | deleteByVideo video => exact h.remove _

end Table

/-! ## Comments of rows -/

/-- The comment in a row whose content is there. -/
def Row.toComment (r : Row) : Comment := ⟨r.id, r.video, r.content.getD ""⟩

theorem Operation.comments_eq_ok {rows : List Row} (h : ∀ r ∈ rows, r.content.isSome) :
    comments rows = .ok (rows.map Row.toComment) := by
  have hmapM : rows.mapM Row.comment = .ok (rows.map Row.toComment) := by
    induction rows with
    | nil => rfl
    | cons r rows ih =>
      rw [List.forall_mem_cons] at h
      have hr : r.comment = .ok r.toComment := by
        obtain ⟨content, hcontent⟩ := Option.isSome_iff_exists.1 h.1
        rw [Row.comment, Row.toComment, hcontent]
        rfl
      rw [List.mapM_cons, hr, ih h.2]
      rfl
  rw [comments, hmapM]
  rfl

end VideoComments

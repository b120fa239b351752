import VideoComments.Metrics.Requests

/-!
# What metrics say of requests

A family that is changed by one observation after another holds, under a label set, what the
observations with that label set alone make of it, and nothing if there are none
(`Family.get?_observeAll`). So a counter is the number of its requests, and so is the count of the
histogram beside it (`Metrics.get?_counters_recordAll`, `Metrics.count_durations_recordAll`), and
every label set stands once.
-/

namespace VideoComments

/-! ## Families -/

namespace Family

variable {V X : Type}

/-- The label sets of a family. -/
def labelSets (f : Family V) : List Labels := f.map Prod.fst

theorem get?_cons (labels l : Labels) (v : V) (rest : Family V) :
    get? ((labels, v) :: rest) l = if l = labels then some v else rest.get? l := by
  rw [get?, List.lookup_cons]
  by_cases h : l = labels
  · simp [h]
  · simp [h, beq_eq_false_iff_ne.2 h, get?]

theorem get?_eq_none_iff {f : Family V} {labels : Labels} :
    f.get? labels = none ↔ labels ∉ f.labelSets := by
  rw [get?, List.lookup_eq_none_iff, labelSets, List.mem_map]
  refine ⟨fun h ⟨e, he, heq⟩ => ?_, fun h e he => ?_⟩
  · exact absurd (h e he) (by simp [heq])
  · exact bne_iff_ne.2 fun heq => h ⟨e, he, heq.symm⟩

theorem mem_labelSets_iff {f : Family V} {labels : Labels} :
    labels ∈ f.labelSets ↔ f.get? labels ≠ none := by
  rw [Ne, get?_eq_none_iff, Decidable.not_not]

theorem get?_of_mem {f : Family V} (hnodup : f.labelSets.Nodup) {c : Labels × V} (hc : c ∈ f) :
    f.get? c.1 = some c.2 := by
  induction f with
  | nil => cases hc
  | cons e rest ih =>
    obtain ⟨hhead, hrest⟩ := List.nodup_cons.1 hnodup
    rw [get?_cons]
    rcases List.mem_cons.1 hc with rfl | hc
    · rw [if_pos rfl]
    · have hne : c.1 ≠ e.1 := fun h => hhead (h ▸ List.mem_map_of_mem hc)
      rw [if_neg hne, ih hrest hc]

/-- A change is a change of one value. -/
theorem get?_update (f : Family V) (labels l : Labels) (initial : V) (change : V → V) :
    (f.update labels initial change).get? l =
      if l = labels then some (change ((f.get? labels).getD initial)) else f.get? l := by
  induction f with
  | nil => exact get?_cons labels l _ []
  | cons e rest ih =>
    obtain ⟨labels', v⟩ := e
    rw [update]
    by_cases hhead : labels' = labels
    · subst hhead
      simp only [if_true, get?_cons]
      split <;> rfl
    · simp only [if_neg hhead, get?_cons, ih, if_neg (Ne.symm hhead)]
      by_cases hl : l = labels'
      · rw [if_pos hl, if_neg fun h => hhead (hl.symm.trans h), if_pos hl]
      · rw [if_neg hl, if_neg hl]

theorem labelSets_cons (labels : Labels) (v : V) (rest : Family V) :
    labelSets ((labels, v) :: rest) = labels :: rest.labelSets := rfl

/-- A change keeps every label set in its one place. -/
theorem nodup_labelSets_update {f : Family V} (h : f.labelSets.Nodup) (labels : Labels)
    (initial : V) (change : V → V) : (f.update labels initial change).labelSets.Nodup := by
  induction f with
  | nil => exact List.nodup_cons.2 ⟨List.not_mem_nil, List.nodup_nil⟩
  | cons e rest ih =>
    obtain ⟨labels', v⟩ := e
    rw [labelSets_cons, List.nodup_cons] at h
    rw [update]
    by_cases hhead : labels' = labels
    · rw [if_pos hhead, labelSets_cons, List.nodup_cons]
      exact h
    · rw [if_neg hhead, labelSets_cons, List.nodup_cons]
      refine ⟨?_, ih h.2⟩
      rw [← get?_eq_none_iff, get?_update, if_neg hhead, get?_eq_none_iff]
      exact h.1

/-- The family after one observation after another. -/
def observeAll (f : Family V) (initial : V) (change : V → X → V)
    (observations : List (Labels × X)) : Family V :=
  observations.foldl (fun f o => f.update o.1 initial (change · o.2)) f

/-- The observations with a label set. -/
def own (labels : Labels) (observations : List (Labels × X)) : List X :=
  observations.filterMap fun o => if o.1 = labels then some o.2 else none

/-- **A value comes from its own observations**, in their order. -/
theorem get?_observeAll (f : Family V) (initial : V) (change : V → X → V)
    (observations : List (Labels × X)) (labels : Labels) :
    (f.observeAll initial change observations).get? labels =
      if own labels observations = [] then f.get? labels
      else some ((own labels observations).foldl change ((f.get? labels).getD initial)) := by
  induction observations generalizing f with
  | nil => rfl
  | cons o rest ih =>
    have hrest := ih (f.update o.1 initial (change · o.2))
    rw [get?_update] at hrest
    rw [observeAll, List.foldl_cons]
    refine hrest.trans ?_
    by_cases ho : o.1 = labels
    · subst ho
      have hown : own o.1 (o :: rest) = o.2 :: own o.1 rest := by simp [own]
      rw [hown, if_neg (List.cons_ne_nil _ _), if_pos rfl, List.foldl_cons, Option.getD_some]
      split
      · next hnil => rw [hnil, List.foldl_nil]
      · rfl
    · have hown : own labels (o :: rest) = own labels rest := by simp [own, ho]
      rw [hown, if_neg (Ne.symm ho)]

/-- What grows by one with every observation grows by their number. -/
theorem size_foldl {size : V → Nat} {change : V → X → V}
    (hchange : ∀ v x, size (change v x) = size v + 1) (xs : List X) (v : V) :
    size (xs.foldl change v) = size v + xs.length := by
  induction xs generalizing v with
  | nil => rfl
  | cons x xs ih =>
    rw [List.foldl_cons, ih, hchange, List.length_cons]
    omega

/-- What grows by one with every observation is their number. -/
theorem map_get?_observeAll (size : V → Nat) {initial : V} (hinitial : size initial = 0)
    {change : V → X → V} (hchange : ∀ v x, size (change v x) = size v + 1)
    (observations : List (Labels × X)) (labels : Labels) :
    ((observeAll [] initial change observations).get? labels).map size =
      if (own labels observations).length = 0 then none
      else some (own labels observations).length := by
  rw [get?_observeAll]
  simp only [List.length_eq_zero_iff]
  split
  · rfl
  · rw [Option.map_some, size_foldl hchange, show get? [] labels = (none : Option V) from rfl,
      Option.getD_none, hinitial, Nat.zero_add]

theorem nodup_labelSets_observeAll {f : Family V} (h : f.labelSets.Nodup) (initial : V)
    (change : V → X → V) (observations : List (Labels × X)) :
    (f.observeAll initial change observations).labelSets.Nodup := by
  induction observations generalizing f with
  | nil => exact h
  | cons o rest ih => exact ih (nodup_labelSets_update h o.1 initial _)

end Family

/-! ## Metrics -/

namespace Metrics

/-- The metrics after one request after another. -/
def recordAll (m : Metrics) (requests : List (Labels × Double)) : Metrics :=
  requests.foldl (fun m r => m.record r.1 r.2) m

theorem counters_recordAll (m : Metrics) (requests : List (Labels × Double)) :
    (m.recordAll requests).counters = m.counters.observeAll 0 (fun n _ => n + 1) requests := by
  induction requests generalizing m with
  | nil => rfl
  | cons r rest ih => exact ih (m.record r.1 r.2)

theorem durations_recordAll (m : Metrics) (requests : List (Labels × Double)) :
    (m.recordAll requests).durations =
      m.durations.observeAll (.empty Histogram.durationBounds) Histogram.observe requests := by
  induction requests generalizing m with
  | nil => rfl
  | cons r rest ih => exact ih (m.record r.1 r.2)

/-- Every label set stands once. -/
theorem nodup_labelSets_recordAll (requests : List (Labels × Double)) :
    (recordAll {} requests).counters.labelSets.Nodup ∧
      (recordAll {} requests).durations.labelSets.Nodup := by
  rw [counters_recordAll, durations_recordAll]
  refine ⟨Family.nodup_labelSets_observeAll ?_ _ _ _, Family.nodup_labelSets_observeAll ?_ _ _ _⟩
  · exact List.nodup_nil
  · exact List.nodup_nil

/-- The number of requests with a label set. -/
def count (labels : Labels) (requests : List (Labels × Double)) : Nat :=
  requests.countP fun r => r.1 = labels

theorem length_own (labels : Labels) (requests : List (Labels × Double)) :
    (Family.own labels requests).length = count labels requests := by
  rw [Family.own, List.length_filterMap_eq_countP, count]
  congr 1
  funext r
  by_cases h : r.1 = labels <;> simp [h]

/-- **A counter is the number of its requests**, and there is none without requests. -/
theorem get?_counters_recordAll (requests : List (Labels × Double)) (labels : Labels) :
    (recordAll {} requests).counters.get? labels =
      if count labels requests = 0 then none else some (count labels requests) := by
  have h := Family.map_get?_observeAll (id : Nat → Nat) rfl (fun _ _ => rfl) requests labels
  rw [Option.map_id, length_own] at h
  rw [counters_recordAll]
  exact h

/-- **The count of a histogram is the number of its requests**, and there is none without
requests. -/
theorem count_durations_recordAll (requests : List (Labels × Double)) (labels : Labels) :
    ((recordAll {} requests).durations.get? labels).map Histogram.count =
      if count labels requests = 0 then none else some (count labels requests) := by
  have hempty : (Histogram.empty Histogram.durationBounds).count = 0 := rfl
  have hobserve : ∀ (h : Histogram) (x : Double), (h.observe x).count = h.count + 1 :=
    fun _ _ => rfl
  have h := Family.map_get?_observeAll Histogram.count hempty hobserve requests labels
  rw [length_own] at h
  rw [durations_recordAll]
  exact h

end Metrics

end VideoComments

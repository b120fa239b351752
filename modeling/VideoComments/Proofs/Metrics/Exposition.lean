import Mathlib.Data.List.Dedup
import VideoComments.Metrics.Exposition
import VideoComments.Proofs.Metrics.Histogram
import VideoComments.Proofs.Metrics.Requests
import VideoComments.Proofs.Text.Digits

/-!
# What the text of the metrics says of requests

The text has the samples of every label set that was recorded, label sets in the order of their
text, which determines them (`labelText_injective`). The numbers of a label set are those of its own
requests: how many there were, and how many took no longer than each bound. Only the sum depends on
the order of the requests (`lines_recordAll`, `summary_congr`).

The last bound is printed as infinity and is the largest finite number. Requests whose duration is
positive infinity are counted and are in no bucket.
-/

namespace VideoComments

theorem Method.name_injective {m m' : Method} (h : m.name = m'.name) : m = m' := by
  cases m <;> cases m' <;> first | rfl | simp [Method.name] at h

theorem Outcome.name_injective {o o' : Outcome} (h : o.name = o'.name) : o = o' := by
  cases o <;> cases o' <;> first | rfl | simp [Outcome.name] at h

namespace Metrics

/-! ## Label sets in the order of their text -/

theorem quote_notMem_name (outcome : Outcome) : '"' ∉ outcome.name.toList := by
  cases outcome <;> decide

/-- The text of a label set, cut before the name of its outcome. -/
theorem toList_labelText (l : Labels) :
    (labelText l).toList =
      "method=\"".toList ++ l.method.name.toList ++ "\",status=".toList ++
        '"' :: l.outcome.name.toList ++ ['"'] := by
  have hstatus : "\",status=\"".toList = "\",status=".toList ++ ['"'] := by decide
  have hquote : "\"".toList = ['"'] := by decide
  simp only [labelText, String.toList_append, hstatus, hquote, List.append_assoc, List.cons_append,
    List.nil_append]

theorem labelText_injective {l l' : Labels} (h : labelText l = labelText l') : l = l' := by
  have h := congrArg String.toList h
  rw [toList_labelText, toList_labelText] at h
  obtain ⟨hmethod, houtcome⟩ := Text.append_cons_injective (List.append_cancel_right h)
    (quote_notMem_name _) (quote_notMem_name _)
  have hmethod := List.append_cancel_left (List.append_cancel_right hmethod)
  cases l
  cases l'
  rw [Labels.mk.injEq]
  exact ⟨Method.name_injective (String.toList_inj.1 hmethod),
    Outcome.name_injective (String.toList_inj.1 houtcome)⟩

/-- Label sets in the order of their text. -/
def inOrder (ls : List Labels) : List Labels :=
  ls.mergeSort fun a b => labelText a ≤ labelText b

theorem inOrder_perm (ls : List Labels) : (inOrder ls).Perm ls := List.mergeSort_perm ls _

theorem pairwise_inOrder (ls : List Labels) :
    (inOrder ls).Pairwise fun a b => decide (labelText a ≤ labelText b) = true := by
  refine List.pairwise_mergeSort ?_ ?_ ls
  · intro a b c hab hbc
    exact decide_eq_true (String.le_trans (of_decide_eq_true hab) (of_decide_eq_true hbc))
  · intro a b
    rw [Bool.or_eq_true, decide_eq_true_iff, decide_eq_true_iff]
    exact String.le_total _ _

/-- The order does not depend on the one before. -/
theorem inOrder_congr {ls ls' : List Labels} (h : ls.Perm ls') : inOrder ls = inOrder ls' := by
  refine List.Perm.eq_of_pairwise ?_ (pairwise_inOrder ls) (pairwise_inOrder ls')
    ((inOrder_perm ls).trans (h.trans (inOrder_perm ls').symm))
  intro a b _ _ hab hba
  exact labelText_injective (String.le_antisymm (of_decide_eq_true hab) (of_decide_eq_true hba))

theorem map_fst_sorted {V : Type} (f : Family V) : (sorted f).map Prod.fst = inOrder f.labelSets :=
  List.map_mergeSort fun _ _ _ _ => rfl

/-! ## What is said of requests -/

/-- The label sets of requests, in the order of their text. -/
def recorded (requests : List (Labels × Double)) : List Labels :=
  inOrder (requests.map Prod.fst).dedup

/-- How many requests with a label set took no longer than `bound`. -/
def countUpTo (labels : Labels) (bound : Double) (requests : List (Labels × Double)) : Nat :=
  requests.countP fun r => r.1 = labels ∧ r.2.le bound

/-- The durations of a label set, added one after another. -/
def total (labels : Labels) (requests : List (Labels × Double)) : Double :=
  (Family.own labels requests).foldl Double.add .zero

/-- The samples of the counter of a label set. -/
def counterSummary (start : String) (requests : List (Labels × Double)) (l : Labels) : String :=
  sample (counterName start ++ "_total") (labelText l) (Decimal.ofNat (count l requests))

/-- The samples of the durations of a label set that add up to `sum`. -/
def durationSummary (start : String) (requests : List (Labels × Double)) (sum : Double)
    (l : Labels) : List String :=
  sample (durationName start ++ "_sum") (labelText l) (number sum) ::
  sample (durationName start ++ "_count") (labelText l) (Decimal.ofNat (count l requests)) ::
  Histogram.durationBounds.map fun bound =>
    sample (durationName start ++ "_bucket") ("le=\"" ++ boundText bound ++ "\"," ++ labelText l)
      (Decimal.ofNat (countUpTo l bound requests))

/-- The lines that say how many requests there were and how long they took, the durations of each
label set adding up to `sum`. -/
def summary (start : String) (requests : List (Labels × Double)) (sum : Labels → Double) :
    List String :=
  heading (counterName start) "Total number of requests handled" "counter" ++
  (recorded requests).map (counterSummary start requests) ++
  heading (durationName start) "Histogram of request durations in seconds" "histogram" ++
  (recorded requests).flatMap (fun l => durationSummary start requests (sum l) l) ++
  ["# EOF"]

theorem nodup_recorded (requests : List (Labels × Double)) : (recorded requests).Nodup :=
  (inOrder_perm _).nodup_iff.2 (List.nodup_dedup _)

theorem mem_recorded {requests : List (Labels × Double)} {l : Labels} :
    l ∈ recorded requests ↔ ∃ r ∈ requests, r.1 = l := by
  rw [recorded, (inOrder_perm _).mem_iff, List.mem_dedup, List.mem_map]

theorem count_ne_zero_iff {requests : List (Labels × Double)} {l : Labels} :
    count l requests ≠ 0 ↔ l ∈ (requests.map Prod.fst).dedup := by
  rw [← Nat.pos_iff_ne_zero, count, List.countP_pos_iff, List.mem_dedup, List.mem_map]
  simp only [decide_eq_true_iff]

/-- A family that has a value for each label set of requests, in order. -/
theorem sorted_eq {V : Type} {f : Family V} (hnodup : f.labelSets.Nodup)
    {requests : List (Labels × Double)} {value : Labels → V}
    (h : ∀ l, f.get? l = if count l requests = 0 then none else some (value l)) :
    sorted f = (recorded requests).map fun l => (l, value l) := by
  have hlabels : inOrder f.labelSets = recorded requests := by
    refine inOrder_congr ((List.perm_ext_iff_of_nodup hnodup (List.nodup_dedup _)).2 fun l => ?_)
    rw [Family.mem_labelSets_iff, h l, ← count_ne_zero_iff]
    split <;> simp [*]
  have hvalue : ∀ c ∈ f, (c.1, value c.1) = c := by
    intro c hc
    have hget := Family.get?_of_mem hnodup hc
    rw [h] at hget
    split at hget
    · cases hget
    · rw [Option.some.inj hget]
  rw [← hlabels, ← map_fst_sorted, List.map_map]
  refine (List.map_id _).symm.trans (List.map_congr_left fun c hc => ?_)
  exact (hvalue c ((List.mergeSort_perm f _).mem_iff.1 hc)).symm

/-! ## The numbers of a label set -/

/-- The histogram of the requests with a label set. -/
def histogram (labels : Labels) (requests : List (Labels × Double)) : Histogram :=
  (Family.own labels requests).foldl Histogram.observe (.empty Histogram.durationBounds)

theorem get?_durations_recordAll (requests : List (Labels × Double)) (labels : Labels) :
    (recordAll {} requests).durations.get? labels =
      if count labels requests = 0 then none else some (histogram labels requests) := by
  rw [durations_recordAll, Family.get?_observeAll, ← length_own]
  simp only [List.length_eq_zero_iff]
  rfl

theorem sum_histogram (labels : Labels) (requests : List (Labels × Double)) :
    (histogram labels requests).sum = total labels requests := by
  have hsum : ∀ (xs : List Double) (h : Histogram),
      (xs.foldl Histogram.observe h).sum = xs.foldl Double.add h.sum := by
    intro xs
    induction xs with
    | nil => exact fun _ => rfl
    | cons x xs ih => exact fun h => ih (h.observe x)
  exact hsum _ _

theorem count_histogram (labels : Labels) (requests : List (Labels × Double)) :
    (histogram labels requests).count = count labels requests := by
  have hobserve : ∀ (h : Histogram) (x : Double), (h.observe x).count = h.count + 1 :=
    fun _ _ => rfl
  rw [histogram, Family.size_foldl hobserve, length_own]
  exact Nat.zero_add _

/-- How many durations of a label set do not exceed a bound. -/
theorem countP_own (labels : Labels) (bound : Double) (requests : List (Labels × Double)) :
    (Family.own labels requests).countP (·.le bound) = countUpTo labels bound requests := by
  rw [Family.own, List.countP_filterMap, countUpTo]
  congr 1
  funext r
  by_cases h : r.1 = labels <;> simp [h]

theorem cumulative_histogram (labels : Labels) (requests : List (Labels × Double)) :
    Histogram.cumulative 0 (histogram labels requests).buckets =
      Histogram.durationBounds.map fun bound => (bound, countUpTo labels bound requests) := by
  simp only [histogram, Histogram.cumulative_foldl_observe Histogram.growing_durationBounds,
    countP_own]

theorem histogramLines_histogram (start : String) (requests : List (Labels × Double))
    (l : Labels) :
    histogramLines (durationName start) l (histogram l requests) =
      durationSummary start requests (total l requests) l := by
  rw [histogramLines, durationSummary, sum_histogram, count_histogram, cumulative_histogram,
    List.map_map]
  rfl

/-- **The text says what the requests were.** -/
theorem lines_recordAll (requests : List (Labels × Double)) (start : String) :
    (recordAll {} requests).lines start = summary start requests (total · requests) := by
  obtain ⟨hcounters, hdurations⟩ := nodup_labelSets_recordAll requests
  rw [lines, summary, sorted_eq hcounters (get?_counters_recordAll requests),
    sorted_eq hdurations (get?_durations_recordAll requests), List.map_map, List.flatMap_map]
  simp only [histogramLines_histogram]
  rfl

/-- The last bound is printed as infinity. -/
example : boundText .largest = "+Inf" := rfl

/-! ## What the numbers depend on -/

section Reordered

variable {requests requests' : List (Labels × Double)} {l : Labels}
  (h : (Family.own l requests').Perm (Family.own l requests))

include h

theorem count_congr : count l requests' = count l requests := by
  rw [← length_own, ← length_own, h.length_eq]

theorem countUpTo_congr (bound : Double) :
    countUpTo l bound requests' = countUpTo l bound requests := by
  rw [← countP_own, ← countP_own, h.countP_eq]

theorem counterSummary_congr (start : String) :
    counterSummary start requests' l = counterSummary start requests l := by
  rw [counterSummary, counterSummary, count_congr h]

/-- What is said of a label set depends on its own requests alone, and all but their sum not on
their order. -/
theorem durationSummary_congr (start : String) (sum : Double) :
    durationSummary start requests' sum l = durationSummary start requests sum l := by
  simp only [durationSummary, count_congr h, countUpTo_congr h]

end Reordered

theorem recorded_congr {requests requests' : List (Labels × Double)}
    (h : requests'.Perm requests) : recorded requests' = recorded requests :=
  inOrder_congr (h.map Prod.fst).dedup

theorem summary_congr {requests requests' : List (Labels × Double)} (h : requests'.Perm requests)
    (start : String) (sum : Labels → Double) :
    summary start requests' sum = summary start requests sum := by
  have hown : ∀ l, (Family.own l requests').Perm (Family.own l requests) := fun l =>
    h.filterMap _
  rw [summary, summary, recorded_congr h, funext fun l => counterSummary_congr (hown l) start]
  simp only [durationSummary_congr (hown _)]

/-- A request of a label set is in the last bucket, or took no number of seconds, or infinitely
many. -/
theorem countUpTo_largest {requests : List (Labels × Double)}
    (h : ∀ r ∈ requests, r.2.IsBinary64) (l : Labels) :
    countUpTo l .largest requests + (Family.own l requests).count .nan +
      (Family.own l requests).count (.infinite false) = count l requests := by
  rw [← countP_own, ← length_own]
  refine Histogram.countP_le_largest fun x hx => ?_
  obtain ⟨r, hr, hx⟩ := List.mem_filterMap.1 hx
  split at hx
  · exact Option.some.inj hx ▸ h r hr
  · cases hx

/-- **The text says what the requests were, in any order.** It has the label sets that were
recorded, each with the number of its requests, twice, and with as many as took no longer than each
bound. The numbers grow with the bounds. The last one is the number of requests, without those whose
duration is not a number and those that took infinitely long. A label set is spoken of as if there
were no other, and in any order in the same way, the sum apart. -/
theorem text_recordAll (requests : List (Labels × Double)) (h : ∀ r ∈ requests, r.2.IsBinary64)
    (start : String) :
    (recordAll {} requests).text start =
        String.join ((summary start requests (total · requests)).map (· ++ "\n")) ∧
      (recorded requests).Nodup ∧ (∀ l, l ∈ recorded requests ↔ ∃ r ∈ requests, r.1 = l) ∧
      Histogram.Growing Histogram.durationBounds ∧
      (∀ l, (Histogram.durationBounds.map (countUpTo l · requests)).Pairwise (· ≤ ·)) ∧
      Histogram.durationBounds.getLast? = some .largest ∧
      (∀ l, countUpTo l .largest requests + (Family.own l requests).count .nan +
        (Family.own l requests).count (.infinite false) = count l requests) ∧
      (∀ requests' sum, requests'.Perm requests →
        summary start requests' sum = summary start requests sum) ∧
      ∀ requests' l sum, (Family.own l requests').Perm (Family.own l requests) →
        counterSummary start requests' l = counterSummary start requests l ∧
          durationSummary start requests' sum l = durationSummary start requests sum l := by
  refine ⟨?_, nodup_recorded requests, fun l => mem_recorded, Histogram.growing_durationBounds,
    fun l => ?_, ?_, countUpTo_largest h, fun _ sum hperm => summary_congr hperm start sum,
    fun _ _ sum hown => ⟨counterSummary_congr hown start, durationSummary_congr hown start sum⟩⟩
  · rw [text, lines_recordAll]
  · have hgrowing := Histogram.pairwise_countP_le Histogram.growing_durationBounds
      (Family.own l requests)
    simpa only [countP_own] using hgrowing
  · rw [Histogram.durationBounds, List.getLast?_concat]

/-- A listing of a second and a half, one that took no number of seconds, and a failure that took
infinitely many. -/
def mixed : List (Labels × Double) :=
  [(⟨.listComment, .success⟩, .finite (3 <<< 1073 : Nat)), (⟨.healthz, .error⟩, .infinite false),
    (⟨.listComment, .success⟩, .nan)]

theorem isBinary64_mixed : ∀ r ∈ mixed, r.2.IsBinary64 := by
  rw [mixed, List.forall_mem_cons, List.forall_mem_cons, List.forall_mem_singleton]
  exact ⟨Double.isBinary64_shiftLeft (by decide) (by decide), trivial, trivial⟩

theorem text_recordAll_mixed :
    (∀ r ∈ mixed, r.2.IsBinary64) ∧
      (recordAll {} mixed).text serviceName =
        String.join ((summary serviceName mixed (total · mixed)).map (· ++ "\n")) ∧
      (∀ l, countUpTo l .largest mixed + (Family.own l mixed).count .nan +
        (Family.own l mixed).count (.infinite false) = count l mixed) ∧
      summary serviceName mixed.reverse (total · mixed) =
        summary serviceName mixed (total · mixed) := by
  have h := text_recordAll mixed isBinary64_mixed serviceName
  exact ⟨isBinary64_mixed, h.1, h.2.2.2.2.2.2.1, h.2.2.2.2.2.2.2.1 _ _ (List.reverse_perm _)⟩

/-- **What took infinitely long is counted, and is not below the bound that is printed as
infinity.** -/
theorem infinite_duration_in_no_bucket :
    let lines := (recordAll {} [(⟨.healthz, .success⟩, .infinite false)]).lines "p"
    "p_request_duration_count\x7bmethod=\"Healthz\",status=\"Success\"\x7d 1" ∈ lines ∧
      "p_request_duration_bucket\x7ble=\"+Inf\",method=\"Healthz\",status=\"Success\"\x7d 0"
        ∈ lines ∧
      "p_request_duration_bucket\x7ble=\"+Inf\",method=\"Healthz\",status=\"Success\"\x7d 1"
        ∉ lines := by
  decide +kernel

end Metrics

end VideoComments

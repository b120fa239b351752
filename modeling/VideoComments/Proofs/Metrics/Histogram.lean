import Mathlib.Algebra.Group.Nat.Defs
import Mathlib.Data.List.Induction
import VideoComments.Metrics.Histogram

/-!
# What the buckets of a histogram show

An observation goes into one bucket, and a bucket shows what is in it and in those before it. As the
bounds grow, an observation that does not exceed a bound exceeds none after it, and a bucket shows
the number of the observations up to its bound (`Histogram.cumulative_foldl_observe`). The bounds of
request durations end with the largest finite number, which is exceeded by positive infinity
(`Double.le_largest_iff`).
-/

namespace VideoComments

namespace Double

/-! ## Order -/

theorem le_trans {x y z : Double} (hxy : x.le y = true) (hyz : y.le z = true) :
    x.le z = true := by
  cases x <;> cases y <;> cases z <;> grind [le]

/-- The numbers of binary64: a significand below `2 ^ 53` times a power of two up to `2 ^ 971`, in
units of `2 ^ -1074`, and what is not finite. -/
def IsBinary64 : Double → Prop
  | nan => True
  | infinite _ => True
  | finite units => ∃ m e : Nat, m < 2 ^ 53 ∧ e ≤ 971 + 1074 ∧ units.natAbs = m * 2 ^ e

theorem isBinary64_shiftLeft {m e : Nat} (hm : m < 2 ^ 53) (he : e ≤ 971 + 1074) :
    (finite (m <<< e : Nat)).IsBinary64 :=
  ⟨m, e, hm, he, Nat.shiftLeft_eq m e⟩

theorem mul_two_pow_le {m e k i j : Nat} (hm : m < 2 ^ k) (he : e ≤ i + j) :
    m * 2 ^ e ≤ (1 <<< k - 1) <<< i * 1 <<< j := by
  rw [Nat.shiftLeft_eq, Nat.shiftLeft_eq, Nat.shiftLeft_eq, Nat.one_mul, Nat.one_mul,
    Nat.mul_assoc, ← Nat.pow_add]
  exact Nat.mul_le_mul (Nat.le_sub_one_of_lt hm) (Nat.pow_le_pow_right Nat.two_pos he)

theorem le_largest_of_finite {units : Int} (h : (finite units).IsBinary64) :
    (finite units).le largest = true := by
  obtain ⟨m, e, hm, he, habs⟩ := h
  have hle := mul_two_pow_le hm he
  rw [← habs] at hle
  exact decide_eq_true (Int.le_trans Int.le_natAbs (Int.ofNat_le.2 hle))

/-- The largest number is exceeded by positive infinity alone. -/
theorem le_largest_iff {x : Double} (h : x.IsBinary64) :
    x.le largest = true ↔ x ≠ nan ∧ x ≠ infinite false := by
  cases x with
  | nan => exact ⟨fun h => Bool.noConfusion h, fun h => absurd rfl h.1⟩
  | infinite negative => cases negative <;> simp [le, largest]
  | finite units =>
    exact ⟨fun _ => ⟨Double.noConfusion, Double.noConfusion⟩, fun _ => le_largest_of_finite h⟩

end Double

namespace Histogram

/-! ## Buckets -/

/-- No bound exceeds one after it. -/
def Growing (bounds : List Double) : Prop := bounds.Pairwise fun a b => a.le b = true

instance (bounds : List Double) : Decidable (Growing bounds) :=
  inferInstanceAs (Decidable (bounds.Pairwise fun a b => a.le b = true))

theorem growing_durationBounds : Growing durationBounds := by
  decide +kernel

theorem map_fst_place (x : Double) (bs : List (Double × Nat)) :
    (place x bs).map Prod.fst = bs.map Prod.fst := by
  induction bs with
  | nil => rfl
  | cons b rest ih =>
    rw [place]
    split
    · rfl
    · exact congrArg (b.1 :: ·) ih

theorem cumulative_succ (below : Nat) (bs : List (Double × Nat)) :
    cumulative (below + 1) bs = (cumulative below bs).map fun b => (b.1, b.2 + 1) := by
  induction bs generalizing below with
  | nil => rfl
  | cons b rest ih =>
    rw [cumulative, cumulative, List.map_cons, ← ih, Nat.add_right_comm]

theorem map_fst_cumulative (below : Nat) (bs : List (Double × Nat)) :
    (cumulative below bs).map Prod.fst = bs.map Prod.fst := by
  induction bs generalizing below with
  | nil => rfl
  | cons b rest ih => exact congrArg (b.1 :: ·) (ih _)

/-- **One observation is one more below every bound that it does not exceed.** -/
theorem cumulative_place {bs : List (Double × Nat)} (h : Growing (bs.map Prod.fst)) (x : Double)
    (below : Nat) :
    cumulative below (place x bs) =
      (cumulative below bs).map fun b => (b.1, b.2 + if x.le b.1 then 1 else 0) := by
  induction bs generalizing below with
  | nil => rfl
  | cons b rest ih =>
    obtain ⟨bound, n⟩ := b
    obtain ⟨hbound, hrest⟩ := List.pairwise_cons.1 h
    rw [place]
    by_cases hx : x.le bound = true
    · have hall : ∀ b ∈ cumulative (below + n) rest, x.le b.1 = true := by
        intro b hb
        refine Double.le_trans hx (hbound b.1 ?_)
        rw [← map_fst_cumulative (below + n)]
        exact List.mem_map_of_mem hb
      rw [if_pos hx, cumulative, cumulative, List.map_cons, if_pos hx, ← Nat.add_assoc,
        cumulative_succ]
      congr 1
      refine List.map_congr_left fun b hb => ?_
      rw [if_pos (hall b hb)]
    · rw [if_neg hx, cumulative, cumulative, List.map_cons, if_neg hx, ih hrest, Nat.add_zero]

theorem map_fst_buckets_foldl_observe (bounds : List Double) (xs : List Double) :
    (xs.foldl observe (empty bounds)).buckets.map Prod.fst = bounds := by
  induction xs using List.reverseRecOn with
  | nil =>
    rw [List.foldl_nil, empty, List.map_map]
    exact List.map_id bounds
  | append_singleton xs x ih =>
    rw [List.foldl_append]
    exact (map_fst_place x _).trans ih

theorem cumulative_empty (bounds : List Double) :
    cumulative 0 (empty bounds).buckets = bounds.map fun bound => (bound, 0) := by
  induction bounds with
  | nil => rfl
  | cons bound rest ih => exact congrArg ((bound, 0) :: ·) ih

/-- **A bucket shows the number of observations up to its bound.** -/
theorem cumulative_foldl_observe {bounds : List Double} (h : Growing bounds) (xs : List Double) :
    cumulative 0 (xs.foldl observe (empty bounds)).buckets =
      bounds.map fun bound => (bound, xs.countP (·.le bound)) := by
  induction xs using List.reverseRecOn with
  | nil => exact cumulative_empty bounds
  | append_singleton xs x ih =>
    have hbounds : Growing ((xs.foldl observe (empty bounds)).buckets.map Prod.fst) := by
      rw [map_fst_buckets_foldl_observe]
      exact h
    rw [List.foldl_append]
    refine (cumulative_place hbounds x 0).trans ?_
    rw [ih, List.map_map]
    refine List.map_congr_left fun bound _ => ?_
    rw [List.countP_append, List.countP_singleton]
    rfl

/-- As the bounds grow, so do the numbers of what lies below them. -/
theorem pairwise_countP_le {bounds : List Double} (h : Growing bounds) (xs : List Double) :
    (bounds.map fun bound => xs.countP (·.le bound)).Pairwise (· ≤ ·) := by
  refine List.pairwise_map.2 (h.imp fun hab => ?_)
  exact List.countP_mono_left fun x _ hx => Double.le_trans hx hab

/-- An observation is below the largest number, or not a number, or infinite. -/
theorem countP_le_largest {xs : List Double} (h : ∀ x ∈ xs, x.IsBinary64) :
    xs.countP (·.le .largest) + xs.count .nan + xs.count (.infinite false) = xs.length := by
  induction xs with
  | nil => rfl
  | cons x xs ih =>
    obtain ⟨hx, hxs⟩ := List.forall_mem_cons.1 h
    have hone : (if x.le .largest = true then 1 else 0) + (if x == .nan then 1 else 0) +
        (if x == .infinite false then 1 else 0) = 1 := by
      by_cases hnan : x = .nan
      · simp [hnan, Double.le]
      · by_cases hinfinite : x = .infinite false
        · simp [hinfinite, Double.le, Double.largest]
        · simp [hnan, hinfinite, Double.le_largest_iff hx]
    have ih := ih hxs
    rw [List.countP_cons, List.count_cons, List.count_cons, List.length_cons]
    omega

end Histogram

end VideoComments

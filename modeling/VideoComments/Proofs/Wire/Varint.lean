import Mathlib.Algebra.Ring.Nat
import VideoComments.Wire.Varint

/-!
# Variable-length integers read back

A number is written in as few groups of seven bits as it has, so that ten groups are room enough for
64 bits (`readWithin_encode`), and it is read back whatever follows it (`read_encode`).
-/

namespace VideoComments.Varint

theorem toNat_ofNat {n : Nat} (h : n < 256) : (UInt8.ofNat n).toNat = n := by
  rw [UInt8.toNat_ofNat']
  exact Nat.mod_eq_of_lt h

/-- A number is read back if there is room for its groups. -/
theorem readWithin_encode {room n : Nat} (h : n < 128 ^ (room + 1)) (rest : List UInt8) :
    readWithin (room + 1) (encode n ++ rest) = some (n, rest) := by
  induction room generalizing n with
  | zero =>
    rw [Nat.zero_add, Nat.pow_one] at h
    rw [encode, if_pos h, List.singleton_append, readWithin, toNat_ofNat (by omega), if_pos h]
  | succ room ih =>
    rw [encode]
    by_cases hlast : n < 128
    · rw [if_pos hlast, List.singleton_append, readWithin, toNat_ofNat (by omega), if_pos hlast]
    · have hhigh : n / 128 < 128 ^ (room + 1) := by
        rw [Nat.div_lt_iff_lt_mul (by decide), ← Nat.pow_succ]
        exact h
      have hbyte : (UInt8.ofNat (n % 128 + 128)).toNat = n % 128 + 128 := toNat_ofNat (by omega)
      rw [if_neg hlast, List.cons_append, readWithin, hbyte, if_neg (by omega), ih hhigh]
      simp only [Option.map_some, Nat.add_sub_cancel, Nat.mod_add_div]

theorem length_encode_le_of_lt_pow {room n : Nat} (h : n < 128 ^ (room + 1)) :
    (encode n).length ≤ room + 1 := by
  induction room generalizing n with
  | zero =>
    rw [Nat.zero_add, Nat.pow_one] at h
    rw [encode, if_pos h]
    exact Nat.le_refl 1
  | succ room ih =>
    rw [encode]
    split
    · simp
    · have hhigh : n / 128 < 128 ^ (room + 1) := by
        rw [Nat.div_lt_iff_lt_mul (by decide), ← Nat.pow_succ]
        exact h
      have hlen := ih hhigh
      rw [List.length_cons]
      omega

/-- Ten groups are room enough for 64 bits. -/
theorem lt_pow_of_lt {n : Nat} (h : n < UInt64.size) : n < 128 ^ (9 + 1) :=
  Nat.lt_trans h (by decide)

theorem length_encode_le {n : Nat} (h : n < UInt64.size) : (encode n).length ≤ 10 :=
  length_encode_le_of_lt_pow (lt_pow_of_lt h)

/-- **A number below `2 ^ 64` is read back**, whatever follows it. -/
theorem read_encode {n : Nat} (h : n < UInt64.size) (rest : List UInt8) :
    read (encode n ++ rest) = some (n, rest) := by
  rw [read, readWithin_encode (lt_pow_of_lt h), Option.filter_some, if_pos (by simpa using h)]

end VideoComments.Varint

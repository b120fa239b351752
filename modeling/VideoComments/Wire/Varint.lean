/-!
# Variable-length integers

A number below `2 ^ 64` is written in groups of seven bits, lowest first, the top bit of a byte
saying that more follow. Reading accepts padding groups, up to ten bytes in all.
-/

namespace VideoComments.Varint

/-- The bytes of a number, without padding. -/
def encode (n : Nat) : List UInt8 :=
  if n < 128 then [UInt8.ofNat n] else UInt8.ofNat (n % 128 + 128) :: encode (n / 128)
termination_by n

/-- Reads at most `room` bytes: the number, and what follows it. -/
def readWithin : (room : Nat) → List UInt8 → Option (Nat × List UInt8)
  | 0, _ => none
  | _ + 1, [] => none
  | room + 1, b :: bs =>
    if b.toNat < 128 then some (b.toNat, bs)
    else (readWithin room bs).map fun r => (b.toNat - 128 + 128 * r.1, r.2)

/-- Reads a number below `2 ^ 64`. -/
def read (bytes : List UInt8) : Option (Nat × List UInt8) :=
  (readWithin 10 bytes).filter fun r => r.1 < UInt64.size

theorem readWithin_length {room : Nat} {bytes : List UInt8} {r : Nat × List UInt8}
    (h : readWithin room bytes = some r) : r.2.length < bytes.length := by
  induction room generalizing bytes r with
  | zero => cases h
  | succ room ih =>
    cases bytes with
    | nil => cases h
    | cons b bs =>
      unfold readWithin at h
      split at h
      · cases h; simp
      · obtain ⟨r', h', rfl⟩ := Option.map_eq_some_iff.1 h
        have := ih h'
        simp only [List.length_cons]
        omega

theorem read_length {bytes : List UInt8} {r : Nat × List UInt8} (h : read bytes = some r) :
    r.2.length < bytes.length :=
  readWithin_length (Option.filter_eq_some_iff.1 h).1

end VideoComments.Varint

/-!
# Frames

Messages travel in frames: a flag that says whether the message is compressed, its length in four
bytes, and the message. Compression is not offered, so the flag has to be zero.
-/

namespace VideoComments.Rpc.Frame

/-- The largest message that is taken. -/
def maxLength : Nat := 4194304

/-- What can be wrong with a frame. -/
inductive Fault
  | flag
  | tooLong
  | incomplete
  deriving DecidableEq

/-- The number that four bytes spell, highest first. -/
def ofBytes (a b c d : UInt8) : Nat :=
  ((a.toNat * 256 + b.toNat) * 256 + c.toNat) * 256 + d.toNat

/-- Four bytes that spell a number, highest first. -/
def toBytes (n : Nat) : List UInt8 :=
  [UInt8.ofNat (n >>> 24), UInt8.ofNat (n >>> 16), UInt8.ofNat (n >>> 8), UInt8.ofNat n]

/-- The frame of a message. -/
def encode (message : List UInt8) : List UInt8 := 0 :: toBytes message.length ++ message

/-- Reads one frame: the message, and what follows it. There is none where the bytes end, also when
they end just after the header of a message that has not begun. -/
def read : List UInt8 → Except Fault (Option (List UInt8 × List UInt8))
  | [] => .ok none
  | flag :: a :: b :: c :: d :: rest =>
    let n := ofBytes a b c d
    if flag ≠ 0 then .error .flag
    else if maxLength < n then .error .tooLong
    else if n ≤ rest.length then .ok (some (rest.take n, rest.drop n))
    else if rest = [] then .ok none
    else .error .incomplete
  | _ => .error .incomplete

theorem read_length {bytes : List UInt8} {r : List UInt8 × List UInt8}
    (h : read bytes = .ok (some r)) : r.2.length < bytes.length := by
  unfold read at h
  split at h
  · cases h
  · simp only at h
    split at h
    · cases h
    · split at h
      · cases h
      · split at h
        · cases h
          simp only [List.length_drop, List.length_cons]
          omega
        · split at h <;> cases h
  · cases h

end VideoComments.Rpc.Frame

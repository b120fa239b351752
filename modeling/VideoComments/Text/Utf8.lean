/-!
# UTF-8

Strings as byte strings and back. Reading refuses what is not well-formed: overlong forms,
surrogates, code points past the last one, and sequences cut short.
-/

namespace VideoComments.Utf8

/-- The bytes of a string. -/
def encode (s : String) : List UInt8 := s.toByteArray.data.toList

/-- The string that the bytes spell, if they are well-formed. -/
def decode? (bytes : List UInt8) : Option String := String.fromUTF8? ⟨bytes.toArray⟩

theorem decode?_encode (s : String) : decode? (encode s) = some s := by
  unfold decode? encode String.fromUTF8?
  exact (dif_pos s.isValidUTF8).trans rfl

theorem decode?_eq_some_iff {bytes : List UInt8} {s : String} :
    decode? bytes = some s ↔ bytes = encode s := by
  refine ⟨fun h => ?_, fun h => h ▸ decode?_encode s⟩
  unfold decode? String.fromUTF8? at h
  split at h
  · cases h
    rfl
  · cases h

/-- The number of bytes that a list of characters takes. -/
def length (cs : List Char) : Nat := cs.foldl (fun n c => n + c.utf8Size) 0

/-! ## Decoding what is not well-formed -/

/-- What may follow the first byte of a longer character: the range of the second byte, and how many
bytes follow in all. The ranges leave out overlong forms, surrogates and what lies past the last
code point. -/
def following? (first : UInt8) : Option (UInt8 × UInt8 × Nat) :=
  if first < 0xC2 then none
  else if first < 0xE0 then some (0x80, 0xBF, 1)
  else if first < 0xF0 then
    some (if first = 0xE0 then 0xA0 else 0x80, if first = 0xED then 0x9F else 0xBF, 2)
  else if first < 0xF5 then
    some (if first = 0xF0 then 0x90 else 0x80, if first = 0xF4 then 0x8F else 0xBF, 3)
  else none

/-- Does the byte continue a character? -/
def isContinuation (b : UInt8) : Bool := 0x80 ≤ b && b ≤ 0xBF

/-- How many bytes at the head belong together: a character, as much of one as is there, or a byte
that begins none. -/
def partLength : List UInt8 → Nat
  | first :: second :: rest =>
    match following? first with
    | some (low, high, count) =>
      if low ≤ second ∧ second ≤ high then
        2 + ((rest.take (count - 1)).takeWhile isContinuation).length
      else 1
    | none => 1
  | _ => 1

theorem partLength_pos (bytes : List UInt8) : 0 < partLength bytes := by
  unfold partLength
  split
  · split
    · split <;> omega
    · omega
  · omega

/-- Decodes as far as it can; what is no character becomes one replacement character for as many
bytes as belong together. -/
def decodeLossy (bytes : List UInt8) : List Char :=
  go [] bytes
where
  /-- The characters read so far, in reverse, and the bytes left. -/
  go (done : List Char) : List UInt8 → List Char
    | [] => done.reverse
    | b :: bs =>
      let n := partLength (b :: bs)
      let found := match decode? ((b :: bs).take n) with
        | some s => s.toList
        | none => ['\uFFFD']
      go (found.reverse ++ done) ((b :: bs).drop n)
  termination_by bytes => bytes.length
  decreasing_by
    have := partLength_pos (b :: bs)
    simp only [List.length_drop, List.length_cons]
    omega

end VideoComments.Utf8

import VideoComments.Proofs.Wire.Varint
import VideoComments.Wire.Field

/-!
# Fields read back

A field is well-formed if its number and its value have room on the wire. A well-formed field of any
type is read back, whatever follows it (`Field.read_encode`), and so are fields one after another,
up to the last byte of what was written (`Field.readAll_append`).
-/

namespace VideoComments.Wire

/-! ## Well-formed fields -/

/-- The value has room on the wire. -/
def Value.Fits : Value → Prop
  | .varint n => n < UInt64.size
  | .fixed64 payload => payload.length = 8
  | .bytes payload => payload.length < UInt64.size
  | .group => True
  | .fixed32 payload => payload.length = 4

/-- Fields are numbered from one, with 29 bits. -/
structure Field.WellFormed (f : Field) : Prop where
  number_pos : 0 < f.number
  number_lt : f.number < 2 ^ 29
  value : f.value.Fits

/-! ## Keys -/

theorem WireType.ofCode?_code (type : WireType) : ofCode? type.code = some type := by
  cases type <;> rfl

theorem WireType.code_lt (type : WireType) : type.code < 8 := by
  cases type <;> decide

theorem readKey_encodeKey {number : Nat} (hpos : 0 < number) (hlt : number < 2 ^ 29)
    (type : WireType) (rest : List UInt8) :
    readKey (encodeKey number type ++ rest) = some ((number, type), rest) := by
  have hcode := type.code_lt
  have hkey : 8 * number + type.code < UInt32.size := by
    rw [show UInt32.size = 8 * 2 ^ 29 from rfl]
    omega
  have hread : Varint.read (encodeKey number type ++ rest) =
      some (8 * number + type.code, rest) :=
    Varint.read_encode (Nat.lt_trans hkey (by decide)) rest
  have htype : (8 * number + type.code) % 8 = type.code := by omega
  have hnumber : (8 * number + type.code) / 8 = number := by omega
  simp only [readKey, hread]
  rw [if_pos ⟨hkey, by omega⟩, htype, hnumber, WireType.ofCode?_code]
  rfl

/-! ## Values -/

theorem takeExactly_append {n : Nat} {bytes : List UInt8} (h : bytes.length = n)
    (rest : List UInt8) : takeExactly n (bytes ++ rest) = some (bytes, rest) := by
  subst h
  rw [takeExactly, if_pos (by simp), List.take_left, List.drop_left]

/-- A group without fields ends at once. -/
theorem readGroup_encodeKey (inner : Nat → WireType → List UInt8 → Option (Value × List UInt8))
    {number : Nat} (hpos : 0 < number) (hlt : number < 2 ^ 29) (rest : List UInt8) :
    readGroup inner number (encodeKey number .groupEnd ++ rest) = some rest := by
  have hkey := readKey_encodeKey hpos hlt .groupEnd rest
  rw [readGroup]
  split
  · next h => rw [hkey] at h; cases h
  · next h =>
    rw [hkey] at h
    cases h
    rw [if_pos rfl, if_pos rfl]

/-- **A well-formed field is read back**, whatever follows it. -/
theorem Field.read_encode {f : Field} (hf : f.WellFormed) (depth : Nat) (rest : List UInt8) :
    Field.read (depth + 1) (f.encode ++ rest) = some (f, rest) := by
  obtain ⟨number, value⟩ := f
  obtain ⟨hpos, hlt, hvalue⟩ := hf
  have hkey := readKey_encodeKey hpos hlt
  simp only at hkey
  cases value with
  | varint n =>
    simp only [encode, List.append_assoc, read, hkey, Option.bind_some, readValue]
    rw [Varint.read_encode hvalue]
    rfl
  | fixed64 payload =>
    simp only [encode, List.append_assoc, read, hkey, Option.bind_some, readValue]
    rw [takeExactly_append hvalue]
    rfl
  | bytes payload =>
    simp only [encode, List.append_assoc, read, hkey, Option.bind_some, readValue]
    rw [Varint.read_encode hvalue, Option.bind_some, takeExactly_append rfl]
    rfl
  | group =>
    simp only [encode, List.append_assoc, read, hkey, Option.bind_some, readValue]
    rw [readGroup_encodeKey _ hpos hlt]
    rfl
  | fixed32 payload =>
    simp only [encode, List.append_assoc, read, hkey, Option.bind_some, readValue]
    rw [takeExactly_append hvalue]
    rfl

/-- A key and the length of a payload take at most ten bytes each. -/
theorem Field.length_encode_bytes_le {number : Nat} {payload : List UInt8}
    (h : Field.WellFormed ⟨number, .bytes payload⟩) :
    (Field.encode ⟨number, .bytes payload⟩).length ≤ 20 + payload.length := by
  obtain ⟨-, hlt, hpayload⟩ := h
  have hkey : (encodeKey number .bytes).length ≤ 10 := by
    refine Varint.length_encode_le ?_
    simp only [WireType.code, UInt64.size] at hlt ⊢
    omega
  have hlength := Varint.length_encode_le hpayload
  simp only [encode, List.length_append]
  omega

/-! ## Fields one after another -/

theorem Field.readAll_of_read {depth : Nat} {bytes rest : List UInt8} {f : Field}
    (h : Field.read depth bytes = some (f, rest)) (hlt : rest.length < bytes.length) :
    Field.readAll depth bytes = (Field.readAll depth rest).map (f :: ·) := by
  have hne : bytes ≠ [] := fun heq => by simp [heq] at hlt
  rw [readAll, if_neg hne]
  simp only [h, if_pos hlt]

theorem encodeKey_length_pos (number : Nat) (type : WireType) :
    0 < (encodeKey number type).length := by
  rw [encodeKey, Varint.encode]
  split <;> simp

/-- A field begins with a key. -/
theorem Field.exists_encode_eq (f : Field) :
    ∃ type rest, f.encode = encodeKey f.number type ++ rest := by
  obtain ⟨number, value⟩ := f
  cases value with
  | varint n => exact ⟨_, _, rfl⟩
  | fixed64 payload => exact ⟨_, _, rfl⟩
  | bytes payload => exact ⟨_, _, List.append_assoc _ _ _⟩
  | group => exact ⟨_, _, rfl⟩
  | fixed32 payload => exact ⟨_, _, rfl⟩

theorem Field.encode_length_pos (f : Field) : 0 < f.encode.length := by
  obtain ⟨type, rest, heq⟩ := f.exists_encode_eq
  have hkey := encodeKey_length_pos f.number type
  rw [heq, List.length_append]
  omega

/-- **Well-formed fields are read back** one after another, and reading goes on after them. -/
theorem Field.readAll_append {fs : List Field} (hfs : ∀ f ∈ fs, f.WellFormed) (depth : Nat)
    (rest : List UInt8) :
    Field.readAll (depth + 1) (fs.flatMap Field.encode ++ rest) =
      (Field.readAll (depth + 1) rest).map (fs ++ ·) := by
  induction fs with
  | nil => simp
  | cons f fs ih =>
    rw [List.forall_mem_cons] at hfs
    have hread := Field.read_encode hfs.1 depth (fs.flatMap Field.encode ++ rest)
    have hpos := f.encode_length_pos
    have hlt : (fs.flatMap Field.encode ++ rest).length <
        (f.encode ++ (fs.flatMap Field.encode ++ rest)).length := by
      rw [@List.length_append _ f.encode]
      omega
    rw [List.flatMap_cons, List.append_assoc, Field.readAll_of_read hread hlt, ih hfs.2,
      Option.map_map]
    rfl

theorem Field.readAll_flatMap_encode {fs : List Field} (hfs : ∀ f ∈ fs, f.WellFormed)
    (depth : Nat) : Field.readAll (depth + 1) (fs.flatMap Field.encode) = some fs := by
  have hnil : Field.readAll (depth + 1) [] = some [] := by rw [readAll, if_pos rfl]
  have hread := Field.readAll_append hfs depth []
  rw [List.append_nil, hnil, Option.map_some, List.append_nil] at hread
  exact hread

end VideoComments.Wire

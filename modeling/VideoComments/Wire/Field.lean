import VideoComments.Text.Utf8
import VideoComments.Wire.Varint

/-!
# Fields of a message

A message on the wire is a sequence of fields, each a key and a value. The key holds the number of
the field and the type of the value.

* `Field.encode` writes a field, `Field.readAll` reads the fields of a message.
* Groups are read for their extent only. They may nest; the reader is told how deep.
-/

namespace VideoComments.Wire

/-- The types of values. -/
inductive WireType
  | varint
  | fixed64
  | bytes
  | groupStart
  | groupEnd
  | fixed32
  deriving DecidableEq

namespace WireType

/-- The code of a type in a key. -/
def code : WireType → Nat
  | varint => 0
  | fixed64 => 1
  | bytes => 2
  | groupStart => 3
  | groupEnd => 4
  | fixed32 => 5

/-- The type that a code stands for. -/
def ofCode? : Nat → Option WireType
  | 0 => some varint
  | 1 => some fixed64
  | 2 => some bytes
  | 3 => some groupStart
  | 4 => some groupEnd
  | 5 => some fixed32
  | _ => none

end WireType

/-- The value of a field. -/
inductive Value
  | varint (n : Nat)
  | fixed64 (bytes : List UInt8)
  | bytes (payload : List UInt8)
  /-- A group, whose fields are not kept. -/
  | group
  | fixed32 (bytes : List UInt8)
  deriving DecidableEq

/-- A field of a message. -/
structure Field where
  number : Nat
  value : Value
  deriving DecidableEq

/-! ## Writing -/

/-- The key of a field. -/
def encodeKey (number : Nat) (type : WireType) : List UInt8 :=
  Varint.encode (8 * number + type.code)

/-- The bytes of a field; a group is written empty. -/
def Field.encode (f : Field) : List UInt8 :=
  match f.value with
  | .varint n => encodeKey f.number .varint ++ Varint.encode n
  | .fixed64 bytes => encodeKey f.number .fixed64 ++ bytes
  | .bytes payload => encodeKey f.number .bytes ++ Varint.encode payload.length ++ payload
  | .group => encodeKey f.number .groupStart ++ encodeKey f.number .groupEnd
  | .fixed32 bytes => encodeKey f.number .fixed32 ++ bytes

/-! ## Reading -/

/-- Reads a key. It fits in 32 bits, and fields are numbered from one. -/
def readKey (bytes : List UInt8) : Option ((Nat × WireType) × List UInt8) :=
  match Varint.read bytes with
  | none => none
  | some (key, rest) =>
    if key < UInt32.size ∧ 8 ≤ key then
      (WireType.ofCode? (key % 8)).map fun type => ((key / 8, type), rest)
    else none

/-- Takes exactly `n` bytes. -/
def takeExactly (n : Nat) (bytes : List UInt8) : Option (List UInt8 × List UInt8) :=
  if n ≤ bytes.length then some (bytes.take n, bytes.drop n) else none

theorem readKey_length {bytes : List UInt8} {r : (Nat × WireType) × List UInt8}
    (h : readKey bytes = some r) : r.2.length < bytes.length := by
  unfold readKey at h
  split at h
  · cases h
  · next hv =>
    have := Varint.read_length hv
    split at h
    · obtain ⟨t, -, rfl⟩ := Option.map_eq_some_iff.1 h
      exact this
    · cases h

/-- Reads the fields of a group, each by `inner`, up to the end of the group called `number`. -/
def readGroup (inner : Nat → WireType → List UInt8 → Option (Value × List UInt8)) (number : Nat)
    (bytes : List UInt8) : Option (List UInt8) :=
  match _h : readKey bytes with
  | none => none
  | some ((n, type), rest) =>
    if type = .groupEnd then if n = number then some rest else none
    else
      match inner n type rest with
      | none => none
      | some (_, after) =>
        -- A value never reaches back before its key.
        if after.length ≤ rest.length then readGroup inner number after else none
termination_by bytes.length
decreasing_by
  have := readKey_length _h
  simp only at *
  omega

/-- Reads the value of a field. Groups may nest `depth` deep, and a value inside a group counts as
one level more. -/
def readValue : (depth : Nat) → (number : Nat) → WireType → List UInt8 →
    Option (Value × List UInt8)
  | 0, _, _, _ => none
  | depth + 1, number, type, bytes =>
    match type with
    | .varint => (Varint.read bytes).map fun r => (.varint r.1, r.2)
    | .fixed64 => (takeExactly 8 bytes).map fun r => (.fixed64 r.1, r.2)
    | .bytes => (Varint.read bytes).bind fun r =>
        (takeExactly r.1 r.2).map fun r => (.bytes r.1, r.2)
    | .groupStart => (readGroup (readValue depth) number bytes).map (.group, ·)
    | .groupEnd => none
    | .fixed32 => (takeExactly 4 bytes).map fun r => (.fixed32 r.1, r.2)

/-- Reads one field. -/
def Field.read (depth : Nat) (bytes : List UInt8) : Option (Field × List UInt8) :=
  (readKey bytes).bind fun key =>
    (readValue depth key.1.1 key.1.2 key.2).map fun r => (⟨key.1.1, r.1⟩, r.2)

/-- Reads fields up to the end. -/
def Field.readAll (depth : Nat) (bytes : List UInt8) : Option (List Field) :=
  if bytes = [] then some []
  else
    match Field.read depth bytes with
    | none => none
    | some (f, rest) =>
      -- Every field has a key, so something has been taken.
      if rest.length < bytes.length then (Field.readAll depth rest).map (f :: ·) else none
termination_by bytes.length

/-! ## Values of known fields -/

/-- The string in a value. -/
def Value.text? : Value → Option String
  | .bytes payload => Utf8.decode? payload
  | _ => none

/-- The number in a value: the low 32 bits of a varint. -/
def Value.int32? : Value → Option Int32
  | .varint n => some (Int32.ofNat n)
  | _ => none

/-- The field of a string; the empty string is not written. -/
def textField (number : Nat) (s : String) : List Field :=
  if s = "" then [] else [⟨number, .bytes (Utf8.encode s)⟩]

/-- The field of a number, its sign extended to 64 bits; zero is not written. -/
def int32Field (number : Nat) (i : Int32) : List Field :=
  if i = 0 then [] else [⟨number, .varint (i.toInt % UInt64.size).toNat⟩]

end VideoComments.Wire

import VideoComments.Proofs.Wire.Field

/-!
# The grammar of fields

`Varint.Spells` and `Field.Spells` say which bytes spell a number and which spell a field, without
regard to how bytes are read: numbers may be padded, and a group holds fields of any number, groups
among them. Reading agrees with the grammar, whatever follows (`Varint.read_eq_some_iff`,
`Field.read_eq_some_iff`): what is read is spelled, and exactly the bytes that spell a field are
taken. So fields one after another (`Field.Sequence`) are read one after another, and reading goes
on behind them (`Field.Sequence.readAll_append`).
-/

namespace VideoComments

/-! ## Numbers -/

namespace Varint

/-- Groups of seven bits, lowest first: every byte but the last has its top bit set. -/
inductive Groups : List UInt8 → Nat → Prop
  | last {b : UInt8} (h : b.toNat < 128) : Groups [b] b.toNat
  | more {b : UInt8} {bs : List UInt8} {n : Nat} (h : 128 ≤ b.toNat) (hmore : Groups bs n) :
      Groups (b :: bs) (b.toNat - 128 + 128 * n)

/-- The bytes spell a number of 64 bits. There are at most ten of them, padding included. -/
structure Spells (bytes : List UInt8) (n : Nat) : Prop where
  groups : Groups bytes n
  length_le : bytes.length ≤ 10
  lt : n < UInt64.size

theorem readWithin_eq_some_iff {room : Nat} {bytes rest : List UInt8} {n : Nat} :
    readWithin room bytes = some (n, rest) ↔
      ∃ xs, bytes = xs ++ rest ∧ Groups xs n ∧ xs.length ≤ room := by
  induction room generalizing bytes n with
  | zero =>
    refine iff_of_false (fun h => by cases h) ?_
    rintro ⟨xs, -, hgroups, hlength⟩
    rw [Nat.le_zero, List.length_eq_zero_iff] at hlength
    subst hlength
    cases hgroups
  | succ room ih =>
    constructor
    · intro h
      cases bytes with
      | nil => cases h
      | cons b bs =>
        rw [readWithin] at h
        split at h
        · next hlast =>
          cases h
          exact ⟨[b], rfl, .last hlast, by simp⟩
        · next hmore =>
          obtain ⟨⟨m, after⟩, hread, heq⟩ := Option.map_eq_some_iff.1 h
          cases heq
          obtain ⟨xs, rfl, hgroups, hlength⟩ := ih.1 hread
          exact ⟨b :: xs, rfl, .more (Nat.le_of_not_lt hmore) hgroups, Nat.succ_le_succ hlength⟩
    · rintro ⟨xs, rfl, hgroups, hlength⟩
      cases hgroups with
      | last hlast => rw [List.singleton_append, readWithin, if_pos hlast]
      | more hmore hgroups =>
        have hread := ih.2 ⟨_, rfl, hgroups, Nat.le_of_succ_le_succ hlength⟩
        rw [List.cons_append, readWithin, if_neg (Nat.not_lt.2 hmore), hread]
        rfl

/-- **Exactly the bytes that spell a number are read**, whatever follows them. -/
theorem read_eq_some_iff {bytes rest : List UInt8} {n : Nat} :
    read bytes = some (n, rest) ↔ ∃ xs, bytes = xs ++ rest ∧ Spells xs n := by
  rw [read, Option.filter_eq_some_iff, readWithin_eq_some_iff, decide_eq_true_eq]
  constructor
  · rintro ⟨⟨xs, rfl, hgroups, hlength⟩, hlt⟩
    exact ⟨xs, rfl, hgroups, hlength, hlt⟩
  · rintro ⟨xs, rfl, hgroups, hlength, hlt⟩
    exact ⟨⟨xs, rfl, hgroups, hlength⟩, hlt⟩

theorem Spells.read_append {bytes : List UInt8} {n : Nat} (h : Spells bytes n)
    (rest : List UInt8) : read (bytes ++ rest) = some (n, rest) :=
  read_eq_some_iff.2 ⟨bytes, rfl, h⟩

/-- What is written spells the number. -/
theorem spells_encode {n : Nat} (h : n < UInt64.size) : Spells (encode n) n := by
  obtain ⟨xs, heq, hspells⟩ := read_eq_some_iff.1 (read_encode h [])
  rw [List.append_cancel_right heq]
  exact hspells

end Varint

namespace Wire

/-! ## Keys -/

/-- The bytes are the key of a field. -/
structure IsKey (number : Nat) (type : WireType) (bytes : List UInt8) : Prop where
  number_pos : 0 < number
  number_lt : number < 2 ^ 29
  spells : Varint.Spells bytes (8 * number + type.code)

theorem WireType.ofCode?_eq_some_iff {code : Nat} {type : WireType} :
    ofCode? code = some type ↔ code = type.code := by
  constructor
  · intro h
    rw [ofCode?.eq_def] at h
    split at h <;> cases h <;> rfl
  · rintro rfl
    exact ofCode?_code type

theorem readKey_eq_some_iff {bytes rest : List UInt8} {number : Nat} {type : WireType} :
    readKey bytes = some ((number, type), rest) ↔
      ∃ xs, bytes = xs ++ rest ∧ IsKey number type xs := by
  have hsize : UInt32.size = 8 * 2 ^ 29 := rfl
  constructor
  · intro h
    rw [readKey] at h
    split at h
    · cases h
    · next key after hread =>
      split at h
      · next hkey =>
        obtain ⟨t, htype, heq⟩ := Option.map_eq_some_iff.1 h
        cases heq
        obtain ⟨xs, rfl, hspells⟩ := Varint.read_eq_some_iff.1 hread
        have hcode := WireType.ofCode?_eq_some_iff.1 htype
        have hsplit : 8 * (key / 8) + type.code = key := by omega
        exact ⟨xs, rfl, by omega, by omega, hsplit.symm ▸ hspells⟩
      · cases h
  · rintro ⟨xs, rfl, hpos, hlt, hspells⟩
    have hcode := type.code_lt
    have htype : (8 * number + type.code) % 8 = type.code := by omega
    have hnumber : (8 * number + type.code) / 8 = number := by omega
    rw [readKey, hspells.read_append]
    simp only
    rw [if_pos ⟨by omega, by omega⟩, htype, hnumber, WireType.ofCode?_code]
    rfl

theorem IsKey.readKey_append {number : Nat} {type : WireType} {bytes : List UInt8}
    (h : IsKey number type bytes) (rest : List UInt8) :
    readKey (bytes ++ rest) = some ((number, type), rest) :=
  readKey_eq_some_iff.2 ⟨bytes, rfl, h⟩

theorem isKey_encodeKey {number : Nat} (hpos : 0 < number) (hlt : number < 2 ^ 29)
    (type : WireType) : IsKey number type (encodeKey number type) := by
  have hcode := type.code_lt
  refine ⟨hpos, hlt, Varint.spells_encode ?_⟩
  simp only [UInt64.size]
  omega

/-! ## Fields -/

/-- The bytes spell a field. Groups nest at most `depth` deep, and a field in a group counts as one
level more. -/
inductive Field.Spells : (depth : Nat) → Field → List UInt8 → Prop
  | varint {depth number n : Nat} {key bytes : List UInt8} (hkey : IsKey number .varint key)
      (h : Varint.Spells bytes n) : Spells (depth + 1) ⟨number, .varint n⟩ (key ++ bytes)
  | fixed64 {depth number : Nat} {key payload : List UInt8} (hkey : IsKey number .fixed64 key)
      (h : payload.length = 8) : Spells (depth + 1) ⟨number, .fixed64 payload⟩ (key ++ payload)
  | bytes {depth number : Nat} {key size payload : List UInt8} (hkey : IsKey number .bytes key)
      (h : Varint.Spells size payload.length) :
      Spells (depth + 1) ⟨number, .bytes payload⟩ (key ++ (size ++ payload))
  /-- A group ends with a key of its own number. -/
  | group {depth number : Nat} {key close : List UInt8} {parts : List (Field × List UInt8)}
      (hkey : IsKey number .groupStart key) (hparts : ∀ p ∈ parts, Spells depth p.1 p.2)
      (hclose : IsKey number .groupEnd close) :
      Spells (depth + 1) ⟨number, .group⟩ (key ++ (parts.flatMap Prod.snd ++ close))
  | fixed32 {depth number : Nat} {key payload : List UInt8} (hkey : IsKey number .fixed32 key)
      (h : payload.length = 4) : Spells (depth + 1) ⟨number, .fixed32 payload⟩ (key ++ payload)

/-! ### What is spelled is read -/

theorem takeExactly_eq_some_iff {n : Nat} {bytes payload rest : List UInt8} :
    takeExactly n bytes = some (payload, rest) ↔ bytes = payload ++ rest ∧ payload.length = n := by
  constructor
  · intro h
    rw [takeExactly] at h
    split at h
    · next hle =>
      cases h
      exact ⟨(List.take_append_drop n bytes).symm, List.length_take_of_le hle⟩
    · cases h
  · rintro ⟨rfl, hlength⟩
    exact takeExactly_append hlength rest

/-- One step of reading a group: the key that comes next closes it or begins a field. -/
theorem readGroup_of_readKey {inner : Nat → WireType → List UInt8 → Option (Value × List UInt8)}
    {number n : Nat} {type : WireType} {bytes rest : List UInt8}
    (h : readKey bytes = some ((n, type), rest)) :
    readGroup inner number bytes =
      if type = .groupEnd then if n = number then some rest else none
      else (inner n type rest).bind fun r =>
        if r.2.length ≤ rest.length then readGroup inner number r.2 else none := by
  rw [readGroup]
  split
  · next hnone =>
    rw [h] at hnone
    cases hnone
  · next hsome =>
    rw [h] at hsome
    cases hsome
    cases inner n type rest <;> rfl

/-- A field that is read is a key and a value. -/
theorem Field.read_eq_some_iff_value {depth : Nat} {bytes rest : List UInt8} {f : Field} :
    Field.read depth bytes = some (f, rest) ↔ ∃ type body,
      readKey bytes = some ((f.number, type), body) ∧
        readValue depth f.number type body = some (f.value, rest) := by
  simp only [Field.read, Option.bind_eq_some_iff, Option.map_eq_some_iff, Prod.mk.injEq]
  constructor
  · rintro ⟨⟨⟨number, type⟩, body⟩, hkey, ⟨value, after⟩, hvalue, rfl, rfl⟩
    exact ⟨type, body, hkey, hvalue⟩
  · rintro ⟨type, body, hkey, hvalue⟩
    exact ⟨_, hkey, _, hvalue, rfl, rfl⟩

theorem readValue_groupEnd (depth number : Nat) (bytes : List UInt8) :
    readValue depth number .groupEnd bytes = none := by
  cases depth <;> rfl

/-- The bytes are a key and a value that is read, whatever follows it. -/
def Field.IsRead (depth : Nat) (f : Field) (bytes : List UInt8) : Prop :=
  ∃ type key body, bytes = key ++ body ∧ IsKey f.number type key ∧
    ∀ rest, readValue depth f.number type (body ++ rest) = some (f.value, rest)

/-- A group is read to the key that closes it. -/
theorem readGroup_of_isRead {depth number : Nat} {parts : List (Field × List UInt8)}
    (hparts : ∀ p ∈ parts, Field.IsRead depth p.1 p.2) {close : List UInt8}
    (hclose : IsKey number .groupEnd close) (rest : List UInt8) :
    readGroup (readValue depth) number (parts.flatMap Prod.snd ++ close ++ rest) = some rest := by
  induction parts with
  | nil =>
    rw [List.flatMap_nil, List.nil_append, readGroup_of_readKey (hclose.readKey_append rest),
      if_pos rfl, if_pos rfl]
  | cons p parts ih =>
    rw [List.forall_mem_cons] at hparts
    obtain ⟨⟨type, key, body, hbytes, hkey, hvalue⟩, hparts⟩ := hparts
    have htype : type ≠ .groupEnd := by
      rintro rfl
      have hnone := hvalue []
      rw [readValue_groupEnd] at hnone
      cases hnone
    rw [List.flatMap_cons, hbytes]
    simp only [List.append_assoc] at ih ⊢
    rw [readGroup_of_readKey (hkey.readKey_append _), if_neg htype, hvalue, Option.bind_some,
      if_pos (by simp), ih hparts]

theorem Field.Spells.isRead {depth : Nat} {f : Field} {bytes : List UInt8}
    (h : f.Spells depth bytes) : f.IsRead depth bytes := by
  induction h with
  | varint hkey h =>
    refine ⟨_, _, _, rfl, hkey, fun rest => ?_⟩
    simp only [readValue]
    rw [h.read_append]
    rfl
  | fixed64 hkey h =>
    refine ⟨_, _, _, rfl, hkey, fun rest => ?_⟩
    simp only [readValue]
    rw [takeExactly_append h]
    rfl
  | bytes hkey h =>
    refine ⟨_, _, _, rfl, hkey, fun rest => ?_⟩
    simp only [readValue, List.append_assoc]
    rw [h.read_append, Option.bind_some, takeExactly_append rfl]
    rfl
  | group hkey hparts hclose ih =>
    refine ⟨_, _, _, rfl, hkey, fun rest => ?_⟩
    simp only [readValue]
    rw [readGroup_of_isRead ih hclose]
    rfl
  | fixed32 hkey h =>
    refine ⟨_, _, _, rfl, hkey, fun rest => ?_⟩
    simp only [readValue]
    rw [takeExactly_append h]
    rfl

/-! ### What is read is spelled -/

/-- What is read as a group is fields that are spelled, and a key that closes it. -/
theorem exists_parts_of_readGroup {depth number : Nat}
    (hinner : ∀ (n : Nat) (type : WireType) (bytes rest : List UInt8) (v : Value),
      readValue depth n type bytes = some (v, rest) → ∃ body, bytes = body ++ rest ∧
        ∀ key, IsKey n type key → Field.Spells depth ⟨n, v⟩ (key ++ body))
    {bytes rest : List UInt8} (h : readGroup (readValue depth) number bytes = some rest) :
    ∃ parts : List (Field × List UInt8), ∃ close, (∀ p ∈ parts, p.1.Spells depth p.2) ∧
      IsKey number .groupEnd close ∧ bytes = parts.flatMap Prod.snd ++ (close ++ rest) := by
  -- Every field takes at least its key, so the induction is on the bytes that are left.
  induction hlength : bytes.length using Nat.strong_induction_on generalizing bytes with
  | _ length ih =>
    cases hkey : readKey bytes with
    | none =>
      rw [readGroup] at h
      split at h
      · cases h
      · next hsome =>
        rw [hkey] at hsome
        cases hsome
    | some r =>
      obtain ⟨⟨n, type⟩, body⟩ := r
      rw [readGroup_of_readKey hkey] at h
      obtain ⟨key, rfl, hspelled⟩ := readKey_eq_some_iff.1 hkey
      split at h
      · next htype =>
        subst htype
        split at h
        · next hnumber =>
          cases h
          exact ⟨[], key, List.forall_mem_nil _, hnumber ▸ hspelled, rfl⟩
        · cases h
      · obtain ⟨⟨v, after⟩, hvalue, h⟩ := Option.bind_eq_some_iff.1 h
        split at h
        · next hle =>
          have hshorter := readKey_length hkey
          obtain ⟨parts, close, hparts, hclose, hafter⟩ :=
            ih after.length (by simp only at hle hshorter; omega) h rfl
          obtain ⟨xs, rfl, hfield⟩ := hinner n type body after v hvalue
          refine ⟨(⟨n, v⟩, key ++ xs) :: parts, close, ?_, hclose, ?_⟩
          · exact List.forall_mem_cons.2 ⟨hfield key hspelled, hparts⟩
          · simp only [List.flatMap_cons, List.append_assoc, ← hafter]
        · cases h

/-- What is read as a value is spelled behind any key of its field. -/
theorem exists_body_of_readValue (depth number : Nat) (type : WireType)
    (bytes rest : List UInt8) (v : Value) (h : readValue depth number type bytes = some (v, rest)) :
    ∃ body, bytes = body ++ rest ∧
      ∀ key, IsKey number type key → Field.Spells depth ⟨number, v⟩ (key ++ body) := by
  induction depth generalizing number type bytes rest v with
  | zero => cases h
  | succ depth ih =>
    cases type with
    | varint =>
      obtain ⟨⟨n, after⟩, hread, heq⟩ := Option.map_eq_some_iff.1 h
      cases heq
      obtain ⟨xs, rfl, hspells⟩ := Varint.read_eq_some_iff.1 hread
      exact ⟨xs, rfl, fun key hkey => .varint hkey hspells⟩
    | fixed64 =>
      obtain ⟨⟨payload, after⟩, htake, heq⟩ := Option.map_eq_some_iff.1 h
      cases heq
      obtain ⟨rfl, hlength⟩ := takeExactly_eq_some_iff.1 htake
      exact ⟨payload, rfl, fun key hkey => .fixed64 hkey hlength⟩
    | bytes =>
      obtain ⟨⟨n, after⟩, hread, h⟩ := Option.bind_eq_some_iff.1 h
      obtain ⟨⟨payload, after⟩, htake, heq⟩ := Option.map_eq_some_iff.1 h
      cases heq
      obtain ⟨size, rfl, hspells⟩ := Varint.read_eq_some_iff.1 hread
      obtain ⟨rfl, rfl⟩ := takeExactly_eq_some_iff.1 htake
      exact ⟨size ++ payload, (List.append_assoc _ _ _).symm, fun key hkey => .bytes hkey hspells⟩
    | groupStart =>
      obtain ⟨after, hread, heq⟩ := Option.map_eq_some_iff.1 h
      cases heq
      obtain ⟨parts, close, hparts, hclose, rfl⟩ := exists_parts_of_readGroup ih hread
      exact ⟨parts.flatMap Prod.snd ++ close, (List.append_assoc _ _ _).symm,
        fun key hkey => .group hkey hparts hclose⟩
    | groupEnd => cases h
    | fixed32 =>
      obtain ⟨⟨payload, after⟩, htake, heq⟩ := Option.map_eq_some_iff.1 h
      cases heq
      obtain ⟨rfl, hlength⟩ := takeExactly_eq_some_iff.1 htake
      exact ⟨payload, rfl, fun key hkey => .fixed32 hkey hlength⟩

/-- **Exactly the bytes that spell a field are read**, whatever follows them. -/
theorem Field.read_eq_some_iff {depth : Nat} {bytes rest : List UInt8} {f : Field} :
    Field.read depth bytes = some (f, rest) ↔ ∃ xs, bytes = xs ++ rest ∧ f.Spells depth xs := by
  rw [read_eq_some_iff_value]
  constructor
  · rintro ⟨type, body, hread, hvalue⟩
    obtain ⟨key, rfl, hkey⟩ := readKey_eq_some_iff.1 hread
    obtain ⟨body, rfl, hspells⟩ := exists_body_of_readValue _ _ _ _ _ _ hvalue
    exact ⟨key ++ body, (List.append_assoc _ _ _).symm, hspells key hkey⟩
  · rintro ⟨xs, rfl, hspells⟩
    obtain ⟨type, key, body, rfl, hkey, hvalue⟩ := hspells.isRead
    rw [List.append_assoc]
    exact ⟨type, _, hkey.readKey_append _, hvalue rest⟩

/-- A well-formed field is spelled by what is written. -/
theorem Field.WellFormed.spells {f : Field} (hf : f.WellFormed) (depth : Nat) :
    f.Spells (depth + 1) f.encode := by
  obtain ⟨xs, heq, hspells⟩ := read_eq_some_iff.1 (read_encode hf depth [])
  rw [List.append_cancel_right heq]
  exact hspells

theorem Field.Spells.length_pos {depth : Nat} {f : Field} {bytes : List UInt8}
    (h : f.Spells depth bytes) : 0 < bytes.length := by
  obtain ⟨type, key, body, rfl, hkey, -⟩ := h.isRead
  have hlt := readKey_length (hkey.readKey_append body)
  simp only [List.length_append] at hlt ⊢
  omega

/-! ## Fields one after another -/

/-- The bytes spell fields, one after another. -/
inductive Field.Sequence (depth : Nat) : List Field → List UInt8 → Prop
  | nil : Sequence depth [] []
  | cons {f : Field} {fs : List Field} {xs ys : List UInt8} (h : f.Spells depth xs)
      (hmore : Sequence depth fs ys) : Sequence depth (f :: fs) (xs ++ ys)

namespace Field.Sequence

variable {depth : Nat} {fs gs : List Field} {xs ys : List UInt8}

theorem append (h : Sequence depth fs xs) (h' : Sequence depth gs ys) :
    Sequence depth (fs ++ gs) (xs ++ ys) := by
  induction h with
  | nil => exact h'
  | cons hf _ ih =>
    rw [List.cons_append, List.append_assoc]
    exact .cons hf ih

theorem singleton {f : Field} (h : f.Spells depth xs) : Sequence depth [f] xs := by
  rw [← List.append_nil xs]
  exact .cons h .nil

/-- Well-formed fields are spelled by what is written. -/
theorem of_wellFormed (hfs : ∀ f ∈ fs, f.WellFormed) (depth : Nat) :
    Sequence (depth + 1) fs (fs.flatMap Field.encode) := by
  induction fs with
  | nil => exact .nil
  | cons f fs ih =>
    rw [List.forall_mem_cons] at hfs
    exact .cons (hfs.1.spells depth) (ih hfs.2)

/-- **Fields are read one after another**, and reading goes on behind them. -/
theorem readAll_append (h : Sequence depth fs xs) (rest : List UInt8) :
    Field.readAll depth (xs ++ rest) = (Field.readAll depth rest).map (fs ++ ·) := by
  induction h with
  | nil => simp
  | @cons f fs xs ys hf _ ih =>
    have hread : Field.read depth (xs ++ (ys ++ rest)) = some (f, ys ++ rest) :=
      Field.read_eq_some_iff.2 ⟨xs, rfl, hf⟩
    have hlt : (ys ++ rest).length < (xs ++ (ys ++ rest)).length := by
      have hpos := hf.length_pos
      rw [@List.length_append _ xs]
      omega
    rw [List.append_assoc, Field.readAll_of_read hread hlt, ih, Option.map_map]
    rfl

end Field.Sequence

theorem Field.readAll_nil (depth : Nat) : Field.readAll depth [] = some [] := by
  rw [readAll, if_pos rfl]

/-- **Exactly the bytes that spell fields are read as fields.** -/
theorem Field.readAll_eq_some_iff {depth : Nat} {bytes : List UInt8} {fs : List Field} :
    Field.readAll depth bytes = some fs ↔ Field.Sequence depth fs bytes := by
  constructor
  · intro h
    induction hlength : bytes.length using Nat.strong_induction_on generalizing bytes fs with
    | _ length ih =>
      rw [readAll] at h
      split at h
      · next hnil =>
        cases h
        exact hnil ▸ .nil
      · split at h
        · cases h
        · next f rest hread =>
          split at h
          · next hlt =>
            obtain ⟨fs, hmore, rfl⟩ := Option.map_eq_some_iff.1 h
            obtain ⟨xs, rfl, hf⟩ := Field.read_eq_some_iff.1 hread
            exact .cons hf (ih rest.length (hlength ▸ hlt) hmore rfl)
          · cases h
  · intro h
    have hread := h.readAll_append []
    rw [List.append_nil, readAll_nil, Option.map_some, List.append_nil] at hread
    exact hread

end Wire

end VideoComments

import VideoComments.Proofs.Rpc.Message
import VideoComments.Proofs.Wire.Grammar

/-!
# Messages put together and messages extended

Messages on the wire need not come from one writer, nor from a writer that knows no more than the
reader. Bytes of two messages, one after the other, are read as the two merged. A field of a number
that a message does not define can be inserted between any two fields, also those of a nested
comment (`Inserts`), and changes nothing, whatever its type. Both are the one theorem
`decode?_append_and_insert`.
-/

namespace VideoComments.Rpc

open Wire Message

/-! ## Unknown fields -/

/-- The numbers of the fields that a type of messages defines. -/
def MessageType.numbers : MessageType → List Nat
  | commentInfo | listRequest => [1, 2, 3]
  | createRequest | updateRequest => [1, 2]
  | healthzResponse | listResponse | createResponse | deleteRequest | deleteByVideoRequest => [1]
  | healthzRequest | updateResponse | deleteResponse | deleteByVideoResponse => []

/-- A field that a message does not define is absorbed without a trace. -/
theorem absorb?_of_notMem_numbers {t : MessageType} {f : Field} (h : f.number ∉ t.numbers)
    (depth : Nat) (m : t.Value) : absorb? depth m f = some m := by
  obtain ⟨number, v⟩ := f
  cases t with
  | healthzRequest | updateResponse | deleteResponse | deleteByVideoResponse => rfl
  | commentInfo | listRequest | createRequest | updateRequest =>
    simp only [MessageType.numbers, List.mem_cons, not_or] at h
    simp [absorb?, h]
  | healthzResponse | listResponse | createResponse | deleteRequest | deleteByVideoRequest =>
    simp only [MessageType.numbers, List.mem_singleton] at h
    simp [absorb?, h]

/-- Bytes with a field of an unknown number inserted between two fields. Where that happens in a
nested comment, the length of the comment is written anew. Groups in a nested comment nest one level
less deep than those in the message around it. -/
inductive Inserts : MessageType → (depth : Nat) → List UInt8 → List UInt8 → Prop
  | here {t : MessageType} {depth : Nat} {fs : List Field} {f : Field}
      {before field after : List UInt8} (hbefore : Field.Sequence depth fs before)
      (hfield : f.Spells depth field) (hunknown : f.number ∉ t.numbers) :
      Inserts t depth (before ++ after) (before ++ field ++ after)
  | nested {depth : Nat} {fs : List Field}
      {before key size size' payload payload' after : List UInt8}
      (hbefore : Field.Sequence (depth + 1) fs before) (hkey : IsKey 1 .bytes key)
      (hsize : Varint.Spells size payload.length) (hsize' : Varint.Spells size' payload'.length)
      (h : Inserts .commentInfo depth payload payload') :
      Inserts .listResponse (depth + 1) (before ++ (key ++ (size ++ payload)) ++ after)
        (before ++ (key ++ (size' ++ payload')) ++ after)

namespace Message

variable {M : Type} [Message M] {depth : Nat} {fs : List Field} {before : List UInt8}

/-- What comes first is absorbed first. -/
theorem decodeWithin?_append (h : Field.Sequence depth fs before) (after : List UInt8) :
    decodeWithin? (M := M) depth (before ++ after) = (Field.readAll depth after).bind fun gs =>
      (fs.foldlM (absorb? depth) empty).bind fun m => gs.foldlM (absorb? depth) m := by
  rw [decodeWithin?, h.readAll_append, Option.bind_map]
  congr 1
  funext gs
  exact List.foldlM_append

end Message

/-- **A message is read as before if a field of an unknown number is inserted.** -/
theorem Inserts.decodeWithin?_eq {t : MessageType} {depth : Nat} {bytes bytes' : List UInt8}
    (h : Inserts t depth bytes bytes') :
    decodeWithin? (M := t.Value) depth bytes' = decodeWithin? depth bytes := by
  induction h with
  | @here t depth fs f before field after hbefore hfield hunknown =>
    have habsorb : (fs ++ [f]).foldlM (absorb? (M := t.Value) depth) empty =
        fs.foldlM (absorb? depth) empty := by
      simp [List.foldlM_append, absorb?_of_notMem_numbers hunknown]
    rw [decodeWithin?_append (hbefore.append (.singleton hfield)), decodeWithin?_append hbefore,
      habsorb]
  | @nested depth fs before key size size' payload payload' after hbefore hkey hsize hsize' _ ih =>
    have hold := hbefore.append (.singleton (.bytes hkey hsize))
    have hnew := hbefore.append (.singleton (.bytes hkey hsize'))
    have habsorb : ∀ m : ListCommentResponse, absorb? (depth + 1) m ⟨1, .bytes payload'⟩ =
        absorb? (depth + 1) m ⟨1, .bytes payload⟩ := fun m =>
      congrArg (Option.map fun c => ListCommentResponse.mk (m.comments ++ [c])) ih
    rw [decodeWithin?_append hnew, decodeWithin?_append hold]
    simp only [List.foldlM_append, List.foldlM_cons, habsorb]

/-! ## Boundaries of what is written -/

/-- A field can be inserted between any two fields that are written. -/
theorem Inserts.between {t : MessageType} {m : t.Value} {fs gs : List Field} {f : Field}
    {field : List UInt8} {depth : Nat} (hm : ∀ f ∈ fields m, f.WellFormed)
    (heq : fields m = fs ++ gs) (hfield : f.Spells (depth + 1) field)
    (hunknown : f.number ∉ t.numbers) :
    Inserts t (depth + 1) (encode m)
      (fs.flatMap Field.encode ++ field ++ gs.flatMap Field.encode) := by
  rw [heq, List.forall_mem_append] at hm
  rw [encode, heq, List.flatMap_append]
  exact .here (.of_wellFormed hm.1 depth) hfield hunknown

/-- A field can be inserted into any comment on a page that is written. -/
theorem Inserts.inComment (cs ds : List CommentInfo) {c : CommentInfo} {payload : List UInt8}
    {depth : Nat} (hpage : ∀ f ∈ fields (ListCommentResponse.mk (cs ++ c :: ds)), f.WellFormed)
    (hpayload : payload.length < UInt64.size) (h : Inserts .commentInfo depth (encode c) payload) :
    Inserts .listResponse (depth + 1) (encode (ListCommentResponse.mk (cs ++ c :: ds)))
      ((cs.map (commentField 1)).flatMap Field.encode ++ Field.encode ⟨1, .bytes payload⟩ ++
        (ds.map (commentField 1)).flatMap Field.encode) := by
  simp only [fields, List.map_append, List.map_cons, List.forall_mem_append,
    List.forall_mem_cons] at hpage
  obtain ⟨hbefore, hc, -⟩ := hpage
  have hnested (after : List UInt8) : Inserts .listResponse (depth + 1) (_ ++ after) (_ ++ after) :=
    .nested (.of_wellFormed hbefore depth) (isKey_encodeKey hc.number_pos hc.number_lt _)
      (Varint.spells_encode hc.value) (Varint.spells_encode hpayload) h
  simpa [encode, fields, Field.encode, commentField] using
    hnested ((ds.map (commentField 1)).flatMap Field.encode)

/-- **Messages are merged, and unknown fields are passed over.** For every type of messages, the
bytes of two messages, one after the other, are read as the second merged into the first: strings
and numbers of the second that are not the default take the place of those of the first, and its
comments come behind. And bytes with a field of an unknown number inserted at a boundary, of any
type and holding groups as deep as can be read there, are read as the bytes without it. -/
theorem decode?_append_and_insert (t : MessageType) :
    (∀ m n : t.Value, (∀ f ∈ fields m, f.value.Fits) → (∀ f ∈ fields n, f.value.Fits) →
        decode? (encode m ++ encode n) = some (t.merge m n)) ∧
      ∀ bytes bytes', Inserts t depthLimit bytes bytes' →
        decode? (M := t.Value) bytes' = decode? bytes := by
  refine ⟨fun m n hm hn => ?_, fun bytes bytes' h => h.decodeWithin?_eq⟩
  have hfirst := builds_merge t empty hm 98
  rw [t.merge_empty] at hfirst
  have hboth := hfirst.append (builds_merge t m hn 98)
  rw [decode?, decodeWithin?, encode, encode, ← List.flatMap_append]
  rw [show depthLimit = 99 + 1 from rfl, Field.readAll_flatMap_encode hboth.wellFormed,
    Option.bind_some]
  exact hboth.absorb

/-- A comment. -/
def oneComment : CommentInfo := ⟨"1", "v", "café"⟩

/-- A field that no message defines: a group that holds a number and a group. -/
def strangeGroup : List UInt8 :=
  encodeKey 7 .groupStart ++
    (([Field.encode ⟨1, .varint 150⟩, Field.encode ⟨8, .group⟩]).flatten ++ encodeKey 7 .groupEnd)

theorem spells_strangeGroup (depth : Nat) :
    Field.Spells (depth + 2) ⟨7, .group⟩ strangeGroup := by
  have hkey := isKey_encodeKey (show 0 < 7 by decide) (show 7 < 2 ^ 29 by decide)
  have hnumber : Field.WellFormed ⟨1, .varint 150⟩ :=
    ⟨by decide, by decide, show 150 < UInt64.size by decide⟩
  have hgroup : Field.WellFormed ⟨8, .group⟩ := ⟨by decide, by decide, trivial⟩
  have hparts : ∀ p ∈ [(⟨1, .varint 150⟩, Field.encode ⟨1, .varint 150⟩),
      (⟨8, .group⟩, Field.encode ⟨8, .group⟩)], Field.Spells (depth + 1) p.1 p.2 := by
    simp only [List.forall_mem_cons]
    exact ⟨hnumber.spells depth, hgroup.spells depth, List.forall_mem_nil _⟩
  exact .group (hkey _) hparts (hkey _)

/-- The comment with the group behind its identifier. -/
def extendedComment : List UInt8 :=
  (textField 1 "1").flatMap Field.encode ++ strangeGroup ++
    (textField 2 "v" ++ textField 3 "café").flatMap Field.encode

/-- A page of the comment with the group. -/
def extendedPage : List UInt8 := Field.encode ⟨1, .bytes extendedComment⟩

/-- Two pages are read as one, and the group in the nested comment is passed over. -/
theorem decode?_append_and_insert_strangeGroup :
    (∀ f ∈ fields (ListCommentResponse.mk [oneComment]), f.value.Fits) ∧
    (∀ f ∈ fields commentAndEmpty, f.value.Fits) ∧
    decode? (encode (ListCommentResponse.mk [oneComment]) ++ encode commentAndEmpty) =
      some (ListCommentResponse.mk (oneComment :: commentAndEmpty.comments)) ∧
    Inserts .listResponse depthLimit (encode (ListCommentResponse.mk [oneComment])) extendedPage ∧
    decode? (M := ListCommentResponse) extendedPage =
      decode? (encode (ListCommentResponse.mk [oneComment])) := by
  have hcomment : ∀ s ∈ MessageType.commentInfo.texts oneComment, IsShort s := by decide
  have hshort : ∀ s ∈ MessageType.listResponse.texts (ListCommentResponse.mk [oneComment]),
      IsShort s := by decide
  have hshort' : ∀ s ∈ MessageType.listResponse.texts commentAndEmpty, IsShort s := by decide
  have hone := fits_of_isShort .listResponse hshort
  have htwo := fits_of_isShort .listResponse hshort'
  obtain ⟨hmerge, hinsert⟩ := decode?_append_and_insert .listResponse
  have hcomment : Inserts .commentInfo 99 (encode oneComment) extendedComment :=
    .between (builds_commentInfo (fits_of_isShort .commentInfo hcomment) 0 empty).wellFormed rfl
      (spells_strangeGroup 97) (by decide)
  have hpage : Inserts .listResponse depthLimit (encode (ListCommentResponse.mk [oneComment]))
      extendedPage := by
    have hlength : extendedComment.length < UInt64.size := by decide +kernel
    have hinner : Inserts .listResponse depthLimit (encode (ListCommentResponse.mk [oneComment]))
        (Field.encode ⟨1, .bytes extendedComment⟩ ++ []) :=
      .inComment [] [] (builds_merge .listResponse empty hone 0).wellFormed hlength hcomment
    rwa [List.append_nil] at hinner
  exact ⟨hone, htwo, hmerge _ _ hone htwo, hpage, hinsert _ _ hpage⟩

end VideoComments.Rpc

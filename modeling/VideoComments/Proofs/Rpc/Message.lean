import VideoComments.Proofs.Wire.Field
import VideoComments.Rpc.Message

/-!
# Messages read back

Reading a message absorbs its fields one after another. `Builds` says that fields have room on the
wire and make one message into another when they are absorbed; it goes from the fields of single
values to those of a whole message by appending. The fields of a message merge it into whatever was
read before (`MessageType.merge`, `builds_merge`). Merged into the empty message they build the
message, so the bytes of a message with short strings are read back as the fields that were written,
up to the last byte, and as the message itself (`decode?_encode_message`).
-/

namespace VideoComments.Rpc

open Wire

/-- A string that is short enough for its length to travel. -/
def IsShort (s : String) : Prop := s.utf8ByteSize < 2 ^ 31

instance (s : String) : Decidable (IsShort s) := inferInstanceAs (Decidable (_ < _))

namespace Message

/-! ## Building a message -/

/-- The fields have room on the wire, and absorbing them one after another makes `m` into `m'`. -/
structure Builds {M : Type} [Message M] (depth : Nat) (m : M) (fs : List Field) (m' : M) :
    Prop where
  wellFormed : ∀ f ∈ fs, f.WellFormed
  absorb : fs.foldlM (absorb? depth) m = some m'

variable {M : Type} [Message M] {depth number : Nat} {m m' m'' : M} {fs gs : List Field}

theorem Builds.nil (depth : Nat) (m : M) : Builds depth m [] m :=
  ⟨fun _ h => absurd h List.not_mem_nil, rfl⟩

theorem Builds.append (h : Builds depth m fs m') (h' : Builds depth m' gs m'') :
    Builds depth m (fs ++ gs) m'' := by
  refine ⟨fun f hf => ?_, ?_⟩
  · rcases List.mem_append.1 hf with hf | hf
    · exact h.wellFormed f hf
    · exact h'.wellFormed f hf
  · rw [List.foldlM_append, h.absorb]
    exact h'.absorb

theorem Builds.singleton {f : Field} (hf : f.WellFormed) (h : absorb? depth m f = some m') :
    Builds depth m [f] m' := by
  refine ⟨fun g hg => ?_, ?_⟩
  · rw [List.mem_singleton.1 hg]
    exact hf
  · rw [List.foldlM_cons, h]
    rfl

/-- A value that was read before, or a later one, unless that is the default. -/
def overwrite {α : Type} [DecidableEq α] (default old new : α) : α :=
  if new = default then old else new

@[simp] theorem overwrite_self {α : Type} [DecidableEq α] (default new : α) :
    overwrite default default new = new := by
  unfold overwrite
  split
  · next h => exact h.symm
  · rfl

/-- Absorbing the field of a string overwrites it; the empty string is not written. -/
theorem Builds.text (depth number : Nat) (set : String → M) (old : String) {s : String}
    (hs : ∀ f ∈ textField number s, f.value.Fits)
    (hset : ∀ v, absorb? depth (set old) ⟨number, v⟩ = v.text?.map set)
    (hpos : 0 < number := by decide) (hlt : number < 2 ^ 29 := by decide) :
    Builds depth (set old) (textField number s) (set (overwrite "" old s)) := by
  unfold textField overwrite at *
  split
  · exact .nil depth _
  · next h =>
    rw [if_neg h, List.forall_mem_singleton] at hs
    refine .singleton ⟨hpos, hlt, hs⟩ ?_
    rw [hset, Value.text?, Utf8.decode?_encode]
    rfl

/-- The low 32 bits of a number that was extended to 64 bits are the number. -/
theorem int32_ofNat_emod (i : Int32) : Int32.ofNat (i.toInt % UInt64.size).toNat = i := by
  have hlow := i.le_toInt
  have hhigh := i.toInt_lt
  rw [← Int32.toInt_inj, Int32.toInt_ofNat', Int.toNat_of_nonneg (Int.emod_nonneg _ (by decide))]
  simp only [Int.bmod, Int32.size, UInt64.size] at *
  omega

/-- A number has room for its sign. -/
theorem fits_int32Field (number : Nat) (i : Int32) : ∀ f ∈ int32Field number i, f.value.Fits := by
  unfold int32Field
  split
  · exact List.forall_mem_nil _
  · rw [List.forall_mem_singleton]
    simp only [Value.Fits, UInt64.size]
    omega

/-- Absorbing the field of a number overwrites it; zero is not written. -/
theorem Builds.int32 (depth number : Nat) (set : Int32 → M) (old i : Int32)
    (hset : ∀ v, absorb? depth (set old) ⟨number, v⟩ = v.int32?.map set)
    (hpos : 0 < number := by decide) (hlt : number < 2 ^ 29 := by decide) :
    Builds depth (set old) (int32Field number i) (set (overwrite 0 old i)) := by
  have hfits := fits_int32Field number i
  unfold int32Field overwrite at *
  split
  · exact .nil depth _
  · next h =>
    rw [if_neg h, List.forall_mem_singleton] at hfits
    refine .singleton ⟨hpos, hlt, hfits⟩ ?_
    rw [hset, Value.int32?, int32_ofNat_emod]
    rfl

/-- **A message that its fields build is read back.** -/
theorem Builds.decodeWithin? (h : Builds (depth + 1) empty (fields m) m) :
    decodeWithin? (depth + 1) (encode m) = some m := by
  rw [Message.decodeWithin?, encode, Field.readAll_flatMap_encode h.wellFormed, Option.bind_some,
    h.absorb]

end Message

open Message

/-! ## Comments -/

/-- The strings of a comment. -/
def CommentInfo.texts (m : CommentInfo) : List String := [m.id, m.video, m.content]

/-- A comment after another one was read into it. -/
def CommentInfo.merge (m c : CommentInfo) : CommentInfo where
  id := overwrite "" m.id c.id
  video := overwrite "" m.video c.video
  content := overwrite "" m.content c.content

theorem builds_commentInfo {c : CommentInfo} (h : ∀ f ∈ fields c, f.value.Fits) (depth : Nat)
    (m : CommentInfo) : Builds depth m (fields c) (m.merge c) := by
  obtain ⟨id, video, content⟩ := m
  simp only [fields, List.forall_mem_append] at h
  obtain ⟨⟨hid, hvideo⟩, hcontent⟩ := h
  have hid := Builds.text depth 1 (fun s => CommentInfo.mk s video content) id hid fun _ => rfl
  have hvideo := Builds.text depth 2 (fun s => CommentInfo.mk (overwrite "" id c.id) s content)
    video hvideo fun _ => rfl
  have hcontent := Builds.text depth 3
    (CommentInfo.mk (overwrite "" id c.id) (overwrite "" video c.video)) content hcontent
    fun _ => rfl
  exact (hid.append hvideo).append hcontent

/-- A payload is no longer than the fields among which it is written. -/
theorem length_le_of_mem {fs : List Field} {number : Nat} {payload : List UInt8}
    (h : ⟨number, .bytes payload⟩ ∈ fs) : payload.length ≤ (fs.flatMap Field.encode).length := by
  obtain ⟨before, after, rfl⟩ := List.append_of_mem h
  simp only [List.flatMap_append, List.flatMap_cons, List.length_append, Field.encode]
  omega

theorem exists_eq_of_mem_textField {number : Nat} {s : String} {f : Field}
    (h : f ∈ textField number s) : f = ⟨number, .bytes (Utf8.encode s)⟩ := by
  unfold textField at h
  split at h
  · cases h
  · exact List.mem_singleton.1 h

/-- A comment whose length has room has room for the lengths of its strings. -/
theorem fits_of_fits_commentField {number : Nat} {c : CommentInfo}
    (h : (commentField number c).value.Fits) : ∀ f ∈ fields c, f.value.Fits := by
  have hall : ∀ {k s}, (∀ f ∈ textField k s, f ∈ fields c) →
      ∀ f ∈ textField k s, f.value.Fits := by
    intro k s hmem f hf
    have hle := hmem f hf
    rw [exists_eq_of_mem_textField hf] at hle ⊢
    exact Nat.lt_of_le_of_lt (length_le_of_mem hle) h
  simp only [fields, List.forall_mem_append]
  exact ⟨⟨hall (by simp +contextual [fields]), hall (by simp +contextual [fields])⟩,
    hall (by simp +contextual [fields])⟩

theorem length_encode_textField_le (number : Nat) {s : String} (hs : IsShort s)
    (hpos : 0 < number) (hlt : number < 2 ^ 29) :
    ((textField number s).flatMap Field.encode).length ≤ 20 + s.utf8ByteSize := by
  unfold textField
  split
  · simp
  · rw [List.flatMap_singleton]
    exact Field.length_encode_bytes_le ⟨hpos, hlt, Nat.lt_trans hs (by decide)⟩

/-- The length of a nested comment has room on the wire. -/
theorem wellFormed_commentField {c : CommentInfo} (h : ∀ s ∈ c.texts, IsShort s) :
    (commentField 1 c).WellFormed := by
  obtain ⟨id, video, content⟩ := c
  simp only [CommentInfo.texts, List.forall_mem_cons] at h
  obtain ⟨hid, hvideo, hcontent, -⟩ := h
  have hid' := length_encode_textField_le 1 hid (by decide) (by decide)
  have hvideo' := length_encode_textField_le 2 hvideo (by decide) (by decide)
  have hcontent' := length_encode_textField_le 3 hcontent (by decide) (by decide)
  refine ⟨Nat.one_pos, show 1 < 2 ^ 29 by decide, ?_⟩
  simp only [commentField, Value.Fits, encode, fields, List.flatMap_append, List.length_append,
    UInt64.size, IsShort] at *
  omega

/-! ## Pages of comments -/

/-- Comments are appended in their order. -/
theorem builds_comments (cs : List CommentInfo) (h : ∀ c ∈ cs, (commentField 1 c).value.Fits)
    (depth : Nat) (done : List CommentInfo) :
    Builds (depth + 2) (ListCommentResponse.mk done) (cs.map (commentField 1)) ⟨done ++ cs⟩ := by
  induction cs generalizing done with
  | nil =>
    rw [List.append_nil]
    exact .nil _ _
  | cons c cs ih =>
    rw [List.forall_mem_cons] at h
    have hfields := builds_commentInfo (fits_of_fits_commentField h.1) (depth + 1) empty
    have hempty : CommentInfo.merge empty c = c := by simp [CommentInfo.merge, empty]
    rw [hempty] at hfields
    have hc : Builds (depth + 2) (ListCommentResponse.mk done) [commentField 1 c]
        ⟨done ++ [c]⟩ := by
      refine .singleton ⟨Nat.one_pos, show 1 < 2 ^ 29 by decide, h.1⟩ ?_
      exact congrArg (Option.map fun c => ListCommentResponse.mk (done ++ [c]))
        hfields.decodeWithin?
    have hcs := ih h.2 (done ++ [c])
    rw [List.append_assoc] at hcs
    exact hc.append hcs

/-! ## All messages -/

/-- The types of messages. -/
inductive MessageType
  | commentInfo
  | healthzRequest
  | healthzResponse
  | listRequest
  | listResponse
  | createRequest
  | createResponse
  | updateRequest
  | updateResponse
  | deleteRequest
  | deleteResponse
  | deleteByVideoRequest
  | deleteByVideoResponse

namespace MessageType

/-- The messages of a type. -/
@[reducible] def Value : MessageType → Type
  | commentInfo => CommentInfo
  | healthzRequest => HealthzRequest
  | healthzResponse => HealthzResponse
  | listRequest => ListCommentRequest
  | listResponse => ListCommentResponse
  | createRequest => CreateCommentRequest
  | createResponse => CreateCommentResponse
  | updateRequest => UpdateCommentRequest
  | updateResponse => UpdateCommentResponse
  | deleteRequest => DeleteCommentRequest
  | deleteResponse => DeleteCommentResponse
  | deleteByVideoRequest => DeleteCommentByVideoIdRequest
  | deleteByVideoResponse => DeleteCommentByVideoIdResponse

instance messageValue : (t : MessageType) → Message t.Value
  | commentInfo => inferInstance
  | healthzRequest => inferInstance
  | healthzResponse => inferInstance
  | listRequest => inferInstance
  | listResponse => inferInstance
  | createRequest => inferInstance
  | createResponse => inferInstance
  | updateRequest => inferInstance
  | updateResponse => inferInstance
  | deleteRequest => inferInstance
  | deleteResponse => inferInstance
  | deleteByVideoRequest => inferInstance
  | deleteByVideoResponse => inferInstance

/-- The strings of a message, those of nested messages included. -/
def texts : (t : MessageType) → t.Value → List String
  | commentInfo, m => CommentInfo.texts m
  | healthzResponse, m => [HealthzResponse.status m]
  | listRequest, m => [ListCommentRequest.video m]
  | listResponse, m => (ListCommentResponse.comments m).flatMap CommentInfo.texts
  | createRequest, m => [CreateCommentRequest.video m, CreateCommentRequest.content m]
  | createResponse, m => [CreateCommentResponse.id m]
  | updateRequest, m => [UpdateCommentRequest.id m, UpdateCommentRequest.content m]
  | deleteRequest, m => [DeleteCommentRequest.id m]
  | deleteByVideoRequest, m => [DeleteCommentByVideoIdRequest.video m]
  | healthzRequest, _ => []
  | updateResponse, _ => []
  | deleteResponse, _ => []
  | deleteByVideoResponse, _ => []

end MessageType

/-- A message after another one was read into it. -/
def MessageType.merge : (t : MessageType) → t.Value → t.Value → t.Value
  | commentInfo, m, n => CommentInfo.merge m n
  | healthzRequest, _, n => n
  | healthzResponse, ⟨status⟩, ⟨status'⟩ => HealthzResponse.mk (overwrite "" status status')
  | listRequest, ⟨video, limit, offset⟩, ⟨video', limit', offset'⟩ =>
    ListCommentRequest.mk (overwrite "" video video') (overwrite 0 limit limit')
      (overwrite 0 offset offset')
  | listResponse, ⟨comments⟩, ⟨comments'⟩ => ListCommentResponse.mk (comments ++ comments')
  | createRequest, ⟨video, content⟩, ⟨video', content'⟩ =>
    CreateCommentRequest.mk (overwrite "" video video') (overwrite "" content content')
  | createResponse, ⟨id⟩, ⟨id'⟩ => CreateCommentResponse.mk (overwrite "" id id')
  | updateRequest, ⟨id, content⟩, ⟨id', content'⟩ =>
    UpdateCommentRequest.mk (overwrite "" id id') (overwrite "" content content')
  | updateResponse, _, n => n
  | deleteRequest, ⟨id⟩, ⟨id'⟩ => DeleteCommentRequest.mk (overwrite "" id id')
  | deleteResponse, _, n => n
  | deleteByVideoRequest, ⟨video⟩, ⟨video'⟩ =>
    DeleteCommentByVideoIdRequest.mk (overwrite "" video video')
  | deleteByVideoResponse, _, n => n

theorem MessageType.merge_empty (t : MessageType) (m : t.Value) : t.merge empty m = m := by
  cases t <;> simp [merge, CommentInfo.merge, empty]

/-- **The fields of a message merge it into what was read before.** -/
theorem builds_merge (t : MessageType) (m : t.Value) {n : t.Value}
    (h : ∀ f ∈ fields n, f.value.Fits) (depth : Nat) :
    Builds (depth + 2) m (fields n) (t.merge m n) := by
  cases t with
  | commentInfo => exact builds_commentInfo h _ m
  | healthzRequest => exact .nil _ _
  | healthzResponse => exact .text _ 1 HealthzResponse.mk _ h fun _ => rfl
  | listRequest =>
    obtain ⟨video, limit, offset⟩ := m
    obtain ⟨video', limit', offset'⟩ := n
    simp only [fields, List.forall_mem_append] at h
    have hvideo := Builds.text (depth + 2) 1 (fun s => ListCommentRequest.mk s limit offset)
      video h.1.1 fun _ => rfl
    have hlimit := Builds.int32 (depth + 2) 2
      (fun i => ListCommentRequest.mk (overwrite "" video video') i offset) limit limit'
      fun _ => rfl
    have hoffset := Builds.int32 (depth + 2) 3
      (ListCommentRequest.mk (overwrite "" video video') (overwrite 0 limit limit'))
      offset offset' fun _ => rfl
    exact (hvideo.append hlimit).append hoffset
  | listResponse =>
    exact builds_comments n.comments (fun c hc => h _ (List.mem_map_of_mem hc)) depth m.comments
  | createRequest =>
    obtain ⟨video, content⟩ := m
    obtain ⟨video', content'⟩ := n
    simp only [fields, List.forall_mem_append] at h
    have hvideo := Builds.text (depth + 2) 1 (fun s => CreateCommentRequest.mk s content)
      video h.1 fun _ => rfl
    have hcontent := Builds.text (depth + 2) 2
      (CreateCommentRequest.mk (overwrite "" video video')) content h.2 fun _ => rfl
    exact hvideo.append hcontent
  | createResponse => exact .text _ 1 CreateCommentResponse.mk _ h fun _ => rfl
  | updateRequest =>
    obtain ⟨id, content⟩ := m
    obtain ⟨id', content'⟩ := n
    simp only [fields, List.forall_mem_append] at h
    have hid := Builds.text (depth + 2) 1 (fun s => UpdateCommentRequest.mk s content)
      id h.1 fun _ => rfl
    have hcontent := Builds.text (depth + 2) 2 (UpdateCommentRequest.mk (overwrite "" id id'))
      content h.2 fun _ => rfl
    exact hid.append hcontent
  | updateResponse => exact .nil _ _
  | deleteRequest => exact .text _ 1 DeleteCommentRequest.mk _ h fun _ => rfl
  | deleteResponse => exact .nil _ _
  | deleteByVideoRequest => exact .text _ 1 DeleteCommentByVideoIdRequest.mk _ h fun _ => rfl
  | deleteByVideoResponse => exact .nil _ _

theorem fits_textField (number : Nat) {s : String} (hs : IsShort s) :
    ∀ f ∈ textField number s, f.value.Fits := by
  intro f hf
  rw [exists_eq_of_mem_textField hf]
  exact Nat.lt_trans hs (by decide)

/-- Short strings have room on the wire, and so have comments made of them. -/
theorem fits_of_isShort (t : MessageType) {m : t.Value} (h : ∀ s ∈ t.texts m, IsShort s) :
    ∀ f ∈ fields m, f.value.Fits := by
  cases t with
  | healthzRequest | updateResponse | deleteResponse | deleteByVideoResponse =>
    exact List.forall_mem_nil _
  | healthzResponse | createResponse | deleteRequest | deleteByVideoRequest =>
    exact fits_textField 1 (h _ List.mem_cons_self)
  | createRequest | updateRequest =>
    simp only [MessageType.texts, List.forall_mem_cons] at h
    simp only [fields, List.forall_mem_append]
    exact ⟨fits_textField 1 h.1, fits_textField 2 h.2.1⟩
  | commentInfo =>
    exact fits_of_fits_commentField (wellFormed_commentField h).value
  | listRequest =>
    simp only [fields, List.forall_mem_append]
    exact ⟨⟨fits_textField 1 (h _ List.mem_cons_self), fits_int32Field 2 _⟩, fits_int32Field 3 _⟩
  | listResponse =>
    simp only [fields, List.forall_mem_map]
    exact fun c hc =>
      (wellFormed_commentField fun s hs => h s (List.mem_flatMap.2 ⟨c, hc, hs⟩)).value

/-- **The fields of a message build it.** -/
theorem builds_fields (t : MessageType) {m : t.Value} (h : ∀ s ∈ t.texts m, IsShort s)
    (depth : Nat) : Builds (depth + 2) empty (fields m) m := by
  have hmerge := builds_merge t empty (fits_of_isShort t h) depth
  rw [t.merge_empty] at hmerge
  exact hmerge

/-- **A message is read back from its bytes.** For every type of messages and every message with
short strings, the bytes are read up to the last one as the fields that were written, and as the
message itself. -/
theorem decode?_encode_message (t : MessageType) (m : t.Value) (h : ∀ s ∈ t.texts m, IsShort s) :
    Field.readAll depthLimit (encode m) = some (fields m) ∧ decode? (encode m) = some m := by
  have hbuilds := builds_fields t h 98
  exact ⟨Field.readAll_flatMap_encode hbuilds.wellFormed 99, hbuilds.decodeWithin?⟩

/-- A page with a comment and an empty one. -/
def commentAndEmpty : ListCommentResponse :=
  ⟨[⟨"00000000-0000-4000-8000-000000000001", "v", "café 😀"⟩, {}]⟩

/-- The page is read back, with the empty comment in its place. -/
theorem decode?_encode_message_commentAndEmpty :
    (∀ s ∈ MessageType.listResponse.texts commentAndEmpty, IsShort s) ∧
      Field.readAll depthLimit (encode commentAndEmpty) = some (fields commentAndEmpty) ∧
      decode? (encode commentAndEmpty) = some commentAndEmpty := by
  have hshort : ∀ s ∈ MessageType.listResponse.texts commentAndEmpty, IsShort s := by decide
  exact ⟨hshort, decode?_encode_message .listResponse commentAndEmpty hshort⟩

/-- A negative number takes ten bytes. -/
example : encode (ListCommentRequest.mk "" (-1) 0) =
    [0x10, 0xFF, 0xFF, 0xFF, 0xFF, 0xFF, 0xFF, 0xFF, 0xFF, 0xFF, 0x01] := by
  decide +kernel

end VideoComments.Rpc

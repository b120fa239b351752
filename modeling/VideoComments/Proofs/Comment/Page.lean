import VideoComments.Comment.Page
import VideoComments.Proofs.Json.Literal
import VideoComments.Proofs.Uuid.Spelling

/-!
# Pages read back

Each reader undoes its writer and stops where the writer stopped: strings, fields, the three fields
of a comment, a comment, the comments of a page. So a page that was written is read back
(`decode?_encode`), also from the bytes that a cache keeps, and no two pages are written alike
(`page_of_encoded`).
-/

namespace VideoComments.Page

open Json

/-! ## Tokens and strings -/

theorem trim_cons {c : Char} (h : isSpace c = false) (rest : List Char) :
    trim (c :: rest) = c :: rest := by
  simp [trim, h]

theorem token?_cons {c : Char} (h : isSpace c = false) (rest : List Char) :
    token? c (c :: rest) = some rest := by
  simp [token?, trim_cons h]

theorem token?_cons_of_ne {c d : Char} (h : isSpace d = false) (hne : d ≠ c) (rest : List Char) :
    token? c (d :: rest) = none := by
  simp [token?, trim_cons h, hne]

theorem string?_quote (s : String) (rest : List Char) :
    string? (quote s ++ rest) = some (s.toList, rest) := by
  rw [string?, quote, List.append_assoc, List.cons_append, token?_cons (by decide)]
  exact readString_quote s rest

/-! ## Fields -/

theorem field?_encodeField (d : Draft) (name value : String) (rest : List Char) :
    field? d (encodeField name value ++ rest) = fieldValue? d name (quote value ++ rest) := by
  rw [field?, encodeField, List.append_assoc, List.cons_append, string?_quote, Option.bind_some,
    token?_cons (by decide), Option.bind_some, String.ofList_toList]

theorem field?_id {d : Draft} (h : d.id = none) (u : Uuid) (rest : List Char) :
    field? d (encodeField "id" u.text ++ rest) = some ({ d with id := some u }, rest) := by
  rw [field?_encodeField]
  refine (if_neg (by rw [h]; decide)).trans ?_
  rw [string?_quote, Option.bind_some, Uuid.text, String.toList_ofList, Uuid.parse?_toList]
  rfl

theorem field?_video {d : Draft} (h : d.video = none) (s : String) (rest : List Char) :
    field? d (encodeField "video_id" s ++ rest) = some ({ d with video := some s }, rest) := by
  rw [field?_encodeField]
  refine (if_neg (by rw [h]; decide)).trans ?_
  rw [string?_quote, Option.map_some, String.ofList_toList]

theorem field?_content {d : Draft} (h : d.content = none) (s : String) (rest : List Char) :
    field? d (encodeField "content" s ++ rest) = some ({ d with content := some s }, rest) := by
  rw [field?_encodeField]
  refine (if_neg (by rw [h]; decide)).trans ?_
  rw [string?_quote, Option.map_some, String.ofList_toList]

/-! ## Objects -/

/-- A field is followed by the end of its object, or by a comma and further fields. -/
theorem fields?_of_field? {d d' : Draft} {cs rest : List Char}
    (h : field? d cs = some (d', rest)) :
    fields? d cs = match token? '}' rest with
      | some rest => some (d', rest)
      | none => (token? ',' rest).bind (fields? d') := by
  rw [fields?]
  split
  · next h' => rw [h] at h'; cases h'
  · next h' =>
    rw [h] at h'
    cases h'
    cases token? '}' rest with
    | some rest => rfl
    | none => simp only; split <;> next hcomma => rw [hcomma]; rfl

theorem fields?_comma {d d' : Draft} {cs rest : List Char}
    (h : field? d cs = some (d', ',' :: rest)) : fields? d cs = fields? d' rest := by
  rw [fields?_of_field? h, token?_cons_of_ne (by decide) (by decide), token?_cons (by decide)]
  rfl

theorem fields?_brace {d d' : Draft} {cs rest : List Char}
    (h : field? d cs = some (d', '}' :: rest)) : fields? d cs = some (d', rest) := by
  rw [fields?_of_field? h, token?_cons (by decide)]

theorem fields?_encode (c : Comment) (rest : List Char) :
    fields? {} (encodeField "id" c.id.text ++ (',' :: (encodeField "video_id" c.video ++
      (',' :: (encodeField "content" c.content ++ '}' :: rest))))) =
      some ({ id := some c.id, video := some c.video, content := some c.content }, rest) := by
  rw [fields?_comma (field?_id rfl c.id _), fields?_comma (field?_video rfl c.video _),
    fields?_brace (field?_content rfl c.content _)]

/-- **A comment is read back**, whatever follows it. -/
theorem comment?_encodeComment (c : Comment) (rest : List Char) :
    comment? (encodeComment c ++ rest) = some (c, rest) := by
  have hfields := fields?_encode c rest
  simp only [encodeComment, List.cons_append, List.append_assoc, List.nil_append]
  rw [comment?, token?_cons (by decide)]
  simp only [hfields, Option.bind_some]
  rfl

/-! ## Pages -/

/-- A comment is followed by the end of its page, or by a comma and further comments. -/
theorem comments?_of_comment? {c : Comment} {cs rest : List Char}
    (h : comment? cs = some (c, rest)) :
    comments? cs = match token? ']' rest with
      | some rest => some ([c], rest)
      | none =>
        (token? ',' rest).bind fun rest => (comments? rest).map fun r => (c :: r.1, r.2) := by
  rw [comments?]
  split
  · next h' => rw [h] at h'; cases h'
  · next h' =>
    rw [h] at h'
    cases h'
    cases token? ']' rest with
    | some rest => rfl
    | none => simp only; split <;> next hcomma => rw [hcomma]; rfl

theorem comments?_comma {c : Comment} {cs rest : List Char}
    (h : comment? cs = some (c, ',' :: rest)) :
    comments? cs = (comments? rest).map fun r => (c :: r.1, r.2) := by
  rw [comments?_of_comment? h, token?_cons_of_ne (by decide) (by decide), token?_cons (by decide)]
  rfl

theorem comments?_bracket {c : Comment} {cs rest : List Char}
    (h : comment? cs = some (c, ']' :: rest)) : comments? cs = some ([c], rest) := by
  rw [comments?_of_comment? h, token?_cons (by decide)]

theorem comments?_encode (c : Comment) (page : List Comment) (rest : List Char) :
    comments? ((((c :: page).map encodeComment).intersperse [',']).flatten ++ ']' :: rest) =
      some (c :: page, rest) := by
  induction page generalizing c with
  | nil => simpa using comments?_bracket (comment?_encodeComment c (']' :: rest))
  | cons d page ih =>
    have hd := ih d
    simp only [List.map_cons, List.intersperse_cons_cons, List.flatten_cons, List.append_assoc,
      List.cons_append, List.nil_append] at hd ⊢
    rw [comments?_comma (comment?_encodeComment c _), hd]
    rfl

/-- A page with a comment goes on after its bracket. -/
theorem token?_bracket_comments (c : Comment) (page : List Comment) (rest : List Char) :
    token? ']' ((((c :: page).map encodeComment).intersperse [',']).flatten ++ rest) = none := by
  cases page <;> exact token?_cons_of_ne (by decide) (by decide) _

theorem page?_encodeList (page : List Comment) : page? (encodeList page) = some (page, []) := by
  rw [page?, encodeList, List.cons_append, token?_cons (by decide), Option.bind_some]
  cases page with
  | nil => rfl
  | cons c page => rw [token?_bracket_comments]; exact comments?_encode c page []

/-- **A page is read back.** -/
theorem decode?_encode (page : List Comment) : decode? (encode page) = some page := by
  rw [decode?, encode, String.toList_ofList, decodeList?, page?_encodeList]
  rfl

/-- **What a cache keeps of a page determines the page**: its text is read back as the comments of
the page in their order, whether it is at hand or its bytes, and no other page has that text. -/
theorem page_of_encoded (page : List Comment) :
    decode? (encode page) = some page ∧
      (Utf8.decode? (Utf8.encode (encode page))).bind decode? = some page ∧
      ∀ other, encode other = encode page → other = page := by
  have hread := decode?_encode page
  refine ⟨hread, ?_, fun other h => ?_⟩
  · rw [Utf8.decode?_encode, Option.bind_some, hread]
  · rw [← h, decode?_encode] at hread
    exact Option.some.inj hread

end VideoComments.Page

import VideoComments.Comment
import VideoComments.Json.Value
import VideoComments.Uuid.Spelling

/-!
# Pages of comments as JSON

* `Page.encode` writes a page as one array of objects, compactly, each with the fields `id`,
  `video_id` and `content` in this order.
* `Page.decode?` reads a page in any layout: white space between tokens, the fields in any order and
  in any legal spelling, further fields of other names passed over, an identifier in any of its four
  spellings. A comment may also be an array of its three values. A missing or repeated field, a
  value that is no string, and anything after the array are refused.
-/

namespace VideoComments.Page

open Json

/-! ## Writing -/

/-- One field of an object: its name, a colon and its value. -/
def encodeField (name value : String) : List Char := quote name ++ ':' :: quote value

/-- The object of a comment. -/
def encodeComment (c : Comment) : List Char :=
  '{' :: encodeField "id" c.id.text ++ ',' :: encodeField "video_id" c.video ++
    ',' :: encodeField "content" c.content ++ ['}']

/-- The characters of a page. -/
def encodeList (page : List Comment) : List Char :=
  '[' :: ((page.map encodeComment).intersperse [',']).flatten ++ [']']

/-- The text of a page. -/
def encode (page : List Comment) : String := String.ofList (encodeList page)

/-! ## Reading one comment -/

/-- Takes the next token if it is `c`, and gives what follows it. -/
def token? (c : Char) (cs : List Char) : Option (List Char) :=
  match trim cs with
  | d :: rest => if d = c then some rest else none
  | [] => none

/-- Reads a string that white space may precede. -/
def string? (cs : List Char) : Option (List Char × List Char) := (token? '"' cs).bind readString

/-- The fields of an object that have been met. -/
structure Draft where
  id : Option Uuid := none
  video : Option String := none
  content : Option String := none

/-- The comment of an object, once all three fields have been met. -/
def Draft.comment? (d : Draft) : Option Comment :=
  match d.id, d.video, d.content with
  | some id, some video, some content => some { id, video, content }
  | _, _, _ => none

/-- Reads the value of the field called `name`. A field of a comment is read once, any other is
passed over. -/
def fieldValue? (d : Draft) (name : String) (cs : List Char) : Option (Draft × List Char) :=
  match name with
  | "id" =>
    if d.id.isSome then none
    else (string? cs).bind fun r => (Uuid.parse? r.1).map fun id => ({ d with id := id }, r.2)
  | "video_id" =>
    if d.video.isSome then none
    else (string? cs).map fun r => ({ d with video := String.ofList r.1 }, r.2)
  | "content" =>
    if d.content.isSome then none
    else (string? cs).map fun r => ({ d with content := String.ofList r.1 }, r.2)
  | _ => (skipValue cs).map (d, ·)

/-- Reads a name, a colon and a value. -/
def field? (d : Draft) (cs : List Char) : Option (Draft × List Char) :=
  (string? cs).bind fun name =>
    (token? ':' name.2).bind fun rest => fieldValue? d (String.ofList name.1) rest

/-- Reads the three values of a comment in array form, after the bracket. -/
def values? (cs : List Char) : Option (Comment × List Char) :=
  (string? cs).bind fun id => (Uuid.parse? id.1).bind fun uuid =>
    (token? ',' id.2).bind fun rest => (string? rest).bind fun video =>
      (token? ',' video.2).bind fun rest => (string? rest).bind fun content =>
        (token? ']' content.2).map fun rest =>
          ({ id := uuid, video := String.ofList video.1, content := String.ofList content.1 }, rest)

/-! ## Every reader takes something -/

theorem token?_length {c : Char} {cs rest : List Char} (h : token? c cs = some rest) :
    rest.length < cs.length := by
  have bound := trim_length cs
  unfold token? at h
  split at h
  · next ht =>
    rw [ht, List.length_cons] at bound
    split at h <;> cases h
    omega
  · cases h

theorem string?_length {cs : List Char} {r : List Char × List Char} (h : string? cs = some r) :
    r.2.length < cs.length := by
  obtain ⟨rest, h₁, h₂⟩ := Option.bind_eq_some_iff.1 h
  exact Nat.lt_trans (show r.2.length < rest.length from readFrom_length h₂) (token?_length h₁)

theorem skip_length {stack : List Frame} {expect : Expect} {cs rest : List Char}
    (h : skip stack expect cs = some rest) : rest.length ≤ cs.length := by
  fun_induction skip stack expect cs with
  | case1 => cases h; exact Nat.le_refl _
  | case2 _ _ _ _ _ _ _ hs ih =>
    have := step_length hs
    have := ih h
    omega
  | case3 => cases h

theorem fieldValue?_length {d : Draft} {name : String} {cs : List Char} {r : Draft × List Char}
    (h : fieldValue? d name cs = some r) : r.2.length ≤ cs.length := by
  unfold fieldValue? at h
  split at h
  · split at h
    · cases h
    · obtain ⟨s, hs, h⟩ := Option.bind_eq_some_iff.1 h
      obtain ⟨u, -, rfl⟩ := Option.map_eq_some_iff.1 h
      exact Nat.le_of_lt (string?_length hs)
  · split at h
    · cases h
    · obtain ⟨s, hs, rfl⟩ := Option.map_eq_some_iff.1 h
      exact Nat.le_of_lt (string?_length hs)
  · split at h
    · cases h
    · obtain ⟨s, hs, rfl⟩ := Option.map_eq_some_iff.1 h
      exact Nat.le_of_lt (string?_length hs)
  · obtain ⟨s, hs, rfl⟩ := Option.map_eq_some_iff.1 h
    exact skip_length hs

theorem field?_length {d : Draft} {cs : List Char} {r : Draft × List Char}
    (h : field? d cs = some r) : r.2.length < cs.length := by
  obtain ⟨name, h₁, h⟩ := Option.bind_eq_some_iff.1 h
  obtain ⟨rest, h₂, h₃⟩ := Option.bind_eq_some_iff.1 h
  have l₁ := string?_length h₁
  have l₂ := token?_length h₂
  have l₃ := fieldValue?_length h₃
  omega

theorem values?_length {cs : List Char} {r : Comment × List Char} (h : values? cs = some r) :
    r.2.length < cs.length := by
  obtain ⟨id, h₁, h⟩ := Option.bind_eq_some_iff.1 h
  obtain ⟨u, -, h⟩ := Option.bind_eq_some_iff.1 h
  obtain ⟨r₂, h₂, h⟩ := Option.bind_eq_some_iff.1 h
  obtain ⟨video, h₃, h⟩ := Option.bind_eq_some_iff.1 h
  obtain ⟨r₄, h₄, h⟩ := Option.bind_eq_some_iff.1 h
  obtain ⟨content, h₅, h⟩ := Option.bind_eq_some_iff.1 h
  obtain ⟨r₆, h₆, rfl⟩ := Option.map_eq_some_iff.1 h
  have := string?_length h₁
  have := token?_length h₂
  have := string?_length h₃
  have := token?_length h₄
  have := string?_length h₅
  have := token?_length h₆
  simp only
  omega

/-! ## Reading objects and pages -/

/-- Reads the fields of an object up to its end. -/
def fields? (d : Draft) (cs : List Char) : Option (Draft × List Char) :=
  match _h : field? d cs with
  | none => none
  | some (d, rest) =>
    match token? '}' rest with
    | some rest => some (d, rest)
    | none =>
      match _h' : token? ',' rest with
      | some rest => fields? d rest
      | none => none
termination_by cs.length
decreasing_by
  have := field?_length _h
  have := token?_length _h'
  simp only at *
  omega

/-- Reads a comment in either of its forms. -/
def comment? (cs : List Char) : Option (Comment × List Char) :=
  match token? '{' cs with
  | some rest =>
    -- An object without fields lacks all three.
    (fields? {} rest).bind fun r => r.1.comment?.map (·, r.2)
  | none => (token? '[' cs).bind values?

theorem fields?_length {d : Draft} {cs : List Char} {r : Draft × List Char}
    (h : fields? d cs = some r) : r.2.length < cs.length := by
  fun_induction fields? d cs with
  | case1 => cases h
  | case2 _ _ _ _ hf _ ht =>
    have := field?_length hf
    have := token?_length ht
    cases h
    simp only at *
    omega
  | case3 _ _ _ _ hf _ _ ht ih =>
    have := field?_length hf
    have := token?_length ht
    have := ih h
    simp only at *
    omega
  | case4 => cases h

theorem comment?_length {cs : List Char} {r : Comment × List Char} (h : comment? cs = some r) :
    r.2.length < cs.length := by
  unfold comment? at h
  split at h
  · next ht =>
    obtain ⟨f, hf, h⟩ := Option.bind_eq_some_iff.1 h
    obtain ⟨c, -, rfl⟩ := Option.map_eq_some_iff.1 h
    have := token?_length ht
    have := fields?_length hf
    simp only
    omega
  · obtain ⟨rest, h₁, h₂⟩ := Option.bind_eq_some_iff.1 h
    have := token?_length h₁
    have := values?_length h₂
    omega

/-- Reads the comments of a page up to its end. -/
def comments? (cs : List Char) : Option (List Comment × List Char) :=
  match _h : comment? cs with
  | none => none
  | some (c, rest) =>
    match token? ']' rest with
    | some rest => some ([c], rest)
    | none =>
      match _h' : token? ',' rest with
      | some rest => (comments? rest).map fun r => (c :: r.1, r.2)
      | none => none
termination_by cs.length
decreasing_by
  have := comment?_length _h
  have := token?_length _h'
  simp only at *
  omega

/-- Reads a page and what follows it. -/
def page? (cs : List Char) : Option (List Comment × List Char) :=
  (token? '[' cs).bind fun rest =>
    match token? ']' rest with
    | some rest => some ([], rest)
    | none => comments? rest

/-- The page that a list of characters spells. -/
def decodeList? (cs : List Char) : Option (List Comment) :=
  (page? cs).bind fun r => if trim r.2 = [] then some r.1 else none

/-- The page that a text spells. -/
def decode? (text : String) : Option (List Comment) := decodeList? text.toList

end VideoComments.Page

import VideoComments.Proofs.Comment.Page
import VideoComments.Proofs.Json.Value
import VideoComments.Proofs.Uuid.Grammar

/-!
# The layouts of a page

`Layout page cs` is the grammar of the texts of a page: one array in which every comment is an
object with its three fields, each once and in any order, and with any further fields, or an array
of its three values. White space may precede every token and follow the last one. A page is read
from its layouts and from no other text (`decode?_eq_some_iff`).
-/

namespace VideoComments.Page

open Json

/-! ## The grammar of pages -/

/-- A literal that spells a string, which white space may precede. -/
def Literal (s : String) (cs : List Char) : Prop :=
  ∃ b x, Blank b ∧ Writes s.toList x ∧ cs = b ++ '"' :: x ++ ['"']

/-- A literal that spells an identifier, in any of its four spellings. -/
def Names (u : Uuid) (cs : List Char) : Prop :=
  ∃ s ds, Literal s cs ∧ Uuid.Spells s.toList ds ∧ u.toNat = Nat.ofDigits 16 ds.reverse

/-- What a field says of the comment that it is in. -/
inductive Member
  | id (u : Uuid)
  | video (s : String)
  | content (s : String)
  /-- A field of another name says nothing. -/
  | other

namespace Member

/-- The identifier in a field. -/
def id? : Member → Option Uuid
  | id u => some u
  | _ => none

/-- The video in a field. -/
def video? : Member → Option String
  | video s => some s
  | _ => none

/-- The content in a field. -/
def content? : Member → Option String
  | content s => some s
  | _ => none

end Member

/-- A field of an object: a name, a colon and a value. -/
inductive Field : Member → List Char → Prop
  | id {u : Uuid} {k s v : List Char} (hk : Literal "id" k) (hs : Token ':' s) (hv : Names u v) :
      Field (.id u) (k ++ (s ++ v))
  | video {video : String} {k s v : List Char} (hk : Literal "video_id" k) (hs : Token ':' s)
      (hv : Literal video v) : Field (.video video) (k ++ (s ++ v))
  | content {content : String} {k s v : List Char} (hk : Literal "content" k) (hs : Token ':' s)
      (hv : Literal content v) : Field (.content content) (k ++ (s ++ v))
  | other {name : String} {k s v : List Char} (hk : Literal name k)
      (hname : name ∉ ["id", "video_id", "content"]) (hs : Token ':' s) (hv : Derives .value v) :
      Field .other (k ++ (s ++ v))

/-- The fields of an object, one at least. -/
inductive Fields : List Member → List Char → Prop
  | last {m : Member} {f : List Char} (h : Field m f) : Fields [m] f
  | cons {m : Member} {ms : List Member} {f s fs : List Char} (h : Field m f) (hs : Token ',' s)
      (hmore : Fields ms fs) : Fields (m :: ms) (f ++ (s ++ fs))

/-- The fields of an object name each part of a comment once. -/
structure Describes (ms : List Member) (c : Comment) : Prop where
  id : ms.filterMap Member.id? = [c.id]
  video : ms.filterMap Member.video? = [c.video]
  content : ms.filterMap Member.content? = [c.content]

/-- The two forms of a comment. -/
inductive Form : Comment → List Char → Prop
  | object {c : Comment} {ms : List Member} {o fs e : List Char} (ho : Token '{' o)
      (hfields : Fields ms fs) (h : Describes ms c) (he : Token '}' e) : Form c (o ++ (fs ++ e))
  | array {c : Comment} {o i s v t k e : List Char} (ho : Token '[' o) (hid : Names c.id i)
      (hs : Token ',' s) (hvideo : Literal c.video v) (ht : Token ',' t)
      (hcontent : Literal c.content k) (he : Token ']' e) :
      Form c (o ++ (i ++ (s ++ (v ++ (t ++ (k ++ e))))))

/-- The comments of a page, one at least. -/
inductive Forms : List Comment → List Char → Prop
  | last {c : Comment} {cs : List Char} (h : Form c cs) : Forms [c] cs
  | cons {c : Comment} {page : List Comment} {cs s ds : List Char} (h : Form c cs)
      (hs : Token ',' s) (hmore : Forms page ds) : Forms (c :: page) (cs ++ (s ++ ds))

/-- The texts of a page. -/
inductive Layout : List Comment → List Char → Prop
  | empty {o e b : List Char} (ho : Token '[' o) (he : Token ']' e) (hb : Blank b) :
      Layout [] (o ++ (e ++ b))
  | comments {page : List Comment} {o cs e b : List Char} (ho : Token '[' o) (h : Forms page cs)
      (he : Token ']' e) (hb : Blank b) : Layout page (o ++ (cs ++ (e ++ b)))

/-! ## Tokens and strings -/

theorem token?_eq_some_iff {c : Char} (hc : isSpace c = false) {cs rest : List Char} :
    token? c cs = some rest ↔ ∃ t, Token c t ∧ cs = t ++ rest := by
  constructor
  · intro h
    rw [token?] at h
    split at h
    · next d ts htrim =>
      split at h
      · next hd =>
        cases h
        exact exists_token (hd ▸ htrim)
      · cases h
    · cases h
  · rintro ⟨t, ht, rfl⟩
    rw [token?, ht.trim hc]
    exact if_pos rfl

/-- The token comes next. -/
theorem token?_eq_some {c : Char} {t : List Char} (ht : Token c t) (hc : isSpace c = false)
    (rest : List Char) : token? c (t ++ rest) = some rest :=
  (token?_eq_some_iff hc).2 ⟨t, ht, rfl⟩

/-- Another token comes next. -/
theorem token?_eq_none {c d : Char} {t : List Char} (ht : Token d t) (hd : isSpace d = false)
    (hne : d ≠ c) (rest : List Char) : token? c (t ++ rest) = none := by
  rw [token?, ht.trim hd]
  exact if_neg hne

/-- **A string is read as what its literal spells.** -/
theorem string?_eq_some_iff {cs s rest : List Char} :
    string? cs = some (s, rest) ↔ ∃ l, Literal (String.ofList s) l ∧ cs = l ++ rest := by
  simp only [string?, Option.bind_eq_some_iff, token?_eq_some_iff (c := '"') (by decide),
    readString_eq_some_iff, Literal, String.toList_ofList]
  constructor
  · rintro ⟨_, ⟨t, ⟨b, hb, rfl⟩, rfl⟩, x, hx, rfl⟩
    exact ⟨b ++ '"' :: x ++ ['"'], ⟨b, x, hb, hx, rfl⟩, by simp⟩
  · rintro ⟨_, ⟨b, x, hb, hx, rfl⟩, rfl⟩
    exact ⟨x ++ '"' :: rest, ⟨b ++ ['"'], ⟨b, hb, rfl⟩, by simp⟩, x, hx, rfl⟩

theorem Literal.string? {s : String} {l : List Char} (h : Literal s l) (rest : List Char) :
    string? (l ++ rest) = some (s.toList, rest) :=
  string?_eq_some_iff.2 ⟨l, by rwa [String.ofList_toList], rfl⟩

theorem Names.exists_string? {u : Uuid} {l : List Char} (h : Names u l) (rest : List Char) :
    ∃ s, Page.string? (l ++ rest) = some (s, rest) ∧ Uuid.parse? s = some u := by
  obtain ⟨s, ds, hs, hspells, hu⟩ := h
  exact ⟨s.toList, hs.string? rest, Uuid.parse?_eq_some_iff.2 ⟨ds, hspells, hu⟩⟩

theorem Names.of_string? {u : Uuid} {cs s rest : List Char} (hs : Page.string? cs = some (s, rest))
    (hu : Uuid.parse? s = some u) : ∃ l, Names u l ∧ cs = l ++ rest := by
  obtain ⟨l, hl, rfl⟩ := string?_eq_some_iff.1 hs
  obtain ⟨ds, hspells, hnumber⟩ := Uuid.parse?_eq_some_iff.1 hu
  exact ⟨l, ⟨String.ofList s, ds, hl, by rwa [String.toList_ofList], hnumber⟩, rfl⟩

/-! ## Fields -/

/-- The draft after one more field. No part of a comment may be named twice. -/
def Draft.add? (d : Draft) : Member → Option Draft
  | .id u => if d.id.isSome then none else some { d with id := u }
  | .video s => if d.video.isSome then none else some { d with video := s }
  | .content s => if d.content.isSome then none else some { d with content := s }
  | .other => some d

/-- Further fields are passed over. -/
theorem fieldValue?_other {d : Draft} {name : String}
    (hname : name ∉ ["id", "video_id", "content"]) (cs : List Char) :
    fieldValue? d name cs = (skipValue cs).map (d, ·) := by
  rw [fieldValue?]
  · rintro rfl
    exact hname (by decide)
  · rintro rfl
    exact hname (by decide)
  · rintro rfl
    exact hname (by decide)

theorem fieldValue?_id (d : Draft) (cs : List Char) :
    fieldValue? d "id" cs = if d.id.isSome then none else (string? cs).bind fun r =>
      (Uuid.parse? r.1).map fun u => ({ d with id := some u }, r.2) := by
  rw [fieldValue?]
  cases string? cs with
  | none => rfl
  | some r =>
    simp only [Option.bind_some]
    cases Uuid.parse? r.1 <;> rfl

/-- A string that is kept is the value of its field, which the draft has room for. -/
theorem of_stringField {d' : Draft} (taken : Bool) (keep : String → Draft) {cs rest : List Char}
    (h : (if taken = true then none
      else (string? cs).map fun r => (keep (String.ofList r.1), r.2)) = some (d', rest)) :
    ¬ taken = true ∧ ∃ s v, Literal s v ∧ cs = v ++ rest ∧ keep s = d' := by
  obtain ⟨htaken, h⟩ := Option.ite_none_left_eq_some.1 h
  obtain ⟨⟨t, _⟩, ht, heq⟩ := Option.map_eq_some_iff.1 h
  cases heq
  obtain ⟨v, hv, rfl⟩ := string?_eq_some_iff.1 ht
  exact ⟨htaken, String.ofList t, v, hv, rfl, rfl⟩

theorem Field.of_fieldValue? {d d' : Draft} {name : String} {k s cs rest : List Char}
    (hk : Literal name k) (hs : Token ':' s) (h : fieldValue? d name cs = some (d', rest)) :
    ∃ m v, Field m (k ++ (s ++ v)) ∧ cs = v ++ rest ∧ d.add? m = some d' := by
  by_cases hname : name ∈ ["id", "video_id", "content"]
  · simp only [List.mem_cons, List.not_mem_nil, or_false] at hname
    rcases hname with rfl | rfl | rfl
    · rw [fieldValue?_id] at h
      obtain ⟨hd, h⟩ := Option.ite_none_left_eq_some.1 h
      obtain ⟨⟨t, rest'⟩, ht, h⟩ := Option.bind_eq_some_iff.1 h
      obtain ⟨u, hu, heq⟩ := Option.map_eq_some_iff.1 h
      cases heq
      obtain ⟨v, hv, rfl⟩ := Names.of_string? ht hu
      exact ⟨.id u, v, .id hk hs hv, rfl, if_neg hd⟩
    · obtain ⟨hd, t, v, hv, rfl, rfl⟩ :=
        of_stringField d.video.isSome (fun t => { d with video := t }) h
      exact ⟨.video t, v, .video hk hs hv, rfl, if_neg hd⟩
    · obtain ⟨hd, t, v, hv, rfl, rfl⟩ :=
        of_stringField d.content.isSome (fun t => { d with content := t }) h
      exact ⟨.content t, v, .content hk hs hv, rfl, if_neg hd⟩
  · rw [fieldValue?_other hname] at h
    obtain ⟨rest', hskip, heq⟩ := Option.map_eq_some_iff.1 h
    cases heq
    obtain ⟨v, hv, rfl⟩ := Derives.of_skipValue hskip
    exact ⟨.other, v, .other hk hname hs hv, rfl, rfl⟩

/-- **What is read of a field is a field**, and the draft takes it. -/
theorem Field.of_field? {d d' : Draft} {cs rest : List Char} (h : field? d cs = some (d', rest)) :
    ∃ m f, Field m f ∧ cs = f ++ rest ∧ d.add? m = some d' := by
  obtain ⟨⟨name, afterName⟩, hname, hmore⟩ := Option.bind_eq_some_iff.1 h
  obtain ⟨afterColon, hcolon, hvalue⟩ := Option.bind_eq_some_iff.1 hmore
  obtain ⟨k, hk, hcs⟩ := string?_eq_some_iff.1 hname
  obtain ⟨s, hs, hafterName⟩ := (token?_eq_some_iff (by decide)).1 hcolon
  obtain ⟨m, v, hfield, hafterColon, hadd⟩ := Field.of_fieldValue? hk hs hvalue
  refine ⟨m, _, hfield, ?_, hadd⟩
  rw [List.append_assoc, List.append_assoc, ← hafterColon, ← hafterName]
  exact hcs

theorem field?_of_literal {d : Draft} {name : String} {k s : List Char} (hk : Literal name k)
    (hs : Token ':' s) (cs : List Char) : field? d (k ++ (s ++ cs)) = fieldValue? d name cs := by
  rw [field?, hk.string?, Option.bind_some, token?_eq_some hs (by decide), Option.bind_some,
    String.ofList_toList]

/-- **A field is read** if the draft takes it and what follows ends it. -/
theorem Field.field? {d d' : Draft} {m : Member} {f rest : List Char} (h : Field m f)
    (hadd : d.add? m = some d') (hrest : Ends rest) : field? d (f ++ rest) = some (d', rest) := by
  cases h with
  | id hk hs hv =>
    obtain ⟨hd, heq⟩ := Option.ite_none_left_eq_some.1 hadd
    obtain ⟨t, ht, hu⟩ := hv.exists_string? rest
    rw [List.append_assoc, List.append_assoc, field?_of_literal hk hs, fieldValue?_id, if_neg hd,
      ht, Option.bind_some, hu]
    cases heq
    rfl
  | video hk hs hv | content hk hs hv =>
    obtain ⟨hd, heq⟩ := Option.ite_none_left_eq_some.1 hadd
    rw [List.append_assoc, List.append_assoc, field?_of_literal hk hs]
    refine (if_neg hd).trans ?_
    rw [hv.string?, Option.map_some, String.ofList_toList]
    cases heq
    rfl
  | other hk hname hs hv =>
    cases hadd
    rw [List.append_assoc, List.append_assoc, field?_of_literal hk hs, fieldValue?_other hname,
      hv.skipValue hrest]
    rfl

/-! ## Objects -/

/-- What a field leads to. -/
theorem fields?_eq {d : Draft} {cs : List Char} :
    fields? d cs = (field? d cs).bind fun r => match token? '}' r.2 with
      | some rest => some (r.1, rest)
      | none => (token? ',' r.2).bind (fields? r.1) := by
  cases h : field? d cs with
  | none =>
    rw [fields?]
    split
    · rfl
    · next h' => rw [h] at h'; cases h'
  | some r => exact fields?_of_field? h

/-- **What is read of an object are fields**, and the draft takes them one after the other. -/
theorem Fields.of_fields? {d d' : Draft} {cs rest : List Char}
    (h : fields? d cs = some (d', rest)) :
    ∃ ms fs e, Fields ms fs ∧ Token '}' e ∧ cs = fs ++ (e ++ rest) ∧
      ms.foldlM Draft.add? d = some d' := by
  induction hn : cs.length using Nat.strong_induction_on generalizing d cs with
  | _ n ih =>
    rw [fields?_eq] at h
    obtain ⟨⟨d₁, afterField⟩, hfield, hmore⟩ := Option.bind_eq_some_iff.1 h
    obtain ⟨m, f, hf, rfl, hadd⟩ := Field.of_field? hfield
    simp only at hmore
    cases hend : token? '}' afterField with
    | some rest' =>
      rw [hend] at hmore
      cases hmore
      obtain ⟨e, he, rfl⟩ := (token?_eq_some_iff (by decide)).1 hend
      refine ⟨[m], f, e, .last hf, he, rfl, ?_⟩
      rw [List.foldlM_cons, hadd]
      rfl
    | none =>
      rw [hend] at hmore
      obtain ⟨more, hcomma, hrest⟩ := Option.bind_eq_some_iff.1 hmore
      obtain ⟨s, hs, rfl⟩ := (token?_eq_some_iff (by decide)).1 hcomma
      -- The comma alone makes the text that is left shorter.
      have hlt : more.length < n := by
        have := hs.length_pos
        rw [← hn, List.length_append, List.length_append]
        omega
      obtain ⟨ms, fs, e, hfs, he, rfl, hfold⟩ := ih _ hlt hrest rfl
      refine ⟨m :: ms, f ++ (s ++ fs), e, .cons hf hs hfs, he, by simp, ?_⟩
      rw [List.foldlM_cons, hadd]
      exact hfold

/-- **Fields are read** if the draft takes them one after the other. -/
theorem Fields.fields? {d d' : Draft} {ms : List Member} {fs e rest : List Char}
    (h : Fields ms fs) (he : Token '}' e) (hfold : ms.foldlM Draft.add? d = some d') :
    fields? d (fs ++ (e ++ rest)) = some (d', rest) := by
  induction h generalizing d with
  | @last m f hf =>
    rw [List.foldlM_cons] at hfold
    obtain ⟨d₁, hadd, hfold⟩ := Option.bind_eq_some_iff.1 hfold
    cases hfold
    rw [fields?_of_field? (hf.field? hadd (he.ends (by simp) rest)),
      token?_eq_some he (by decide)]
  | @cons m ms f s fs hf hs _ ih =>
    rw [List.foldlM_cons] at hfold
    obtain ⟨d₁, hadd, hfold⟩ := Option.bind_eq_some_iff.1 hfold
    rw [List.append_assoc, List.append_assoc,
      fields?_of_field? (hf.field? hadd (hs.ends (by simp) _)),
      token?_eq_none hs (by decide) (by decide)]
    change (token? ',' _).bind _ = _
    rw [token?_eq_some hs (by decide), Option.bind_some, ih hfold]

/-- There is no room for two. -/
theorem toList_ne_cons_cons {α : Type} (o : Option α) (x y : α) (zs : List α) :
    o.toList ≠ x :: y :: zs := by
  cases o <;> simp

theorem eq_of_toList_eq {α : Type} {o o' : Option α} (h : o.toList = o'.toList) : o = o' := by
  cases o <;> cases o' <;> simp_all

/-- **What becomes of a draft**: a part is there if it was there before or a field names it, and
there is room for each part once. -/
theorem foldlM_add?_eq_some_iff {d d' : Draft} {ms : List Member} :
    ms.foldlM Draft.add? d = some d' ↔
      d'.id.toList = d.id.toList ++ ms.filterMap Member.id? ∧
      d'.video.toList = d.video.toList ++ ms.filterMap Member.video? ∧
      d'.content.toList = d.content.toList ++ ms.filterMap Member.content? := by
  induction ms generalizing d with
  | nil =>
    simp only [List.foldlM_nil, List.filterMap_nil, List.append_nil, Option.pure_def,
      Option.some.injEq]
    refine ⟨fun h => h ▸ ⟨rfl, rfl, rfl⟩, fun ⟨hid, hvideo, hcontent⟩ => ?_⟩
    obtain ⟨id, video, content⟩ := d
    obtain ⟨id', video', content'⟩ := d'
    obtain rfl : id' = id := eq_of_toList_eq hid
    obtain rfl : video' = video := eq_of_toList_eq hvideo
    obtain rfl : content' = content := eq_of_toList_eq hcontent
    rfl
  | cons m ms ih =>
    rw [List.foldlM_cons]
    cases m with
    | id u =>
      cases hid : d.id with
      | none => simp [Draft.add?, hid, ih, List.filterMap_cons, Member.id?,
        Member.video?, Member.content?]
      | some v =>
        refine iff_of_false ?_ fun h => toList_ne_cons_cons d'.id v u _ h.1
        simp [Draft.add?, hid]
    | video s =>
      cases hvideo : d.video with
      | none => simp [Draft.add?, hvideo, ih, List.filterMap_cons, Member.id?,
        Member.video?, Member.content?]
      | some t =>
        refine iff_of_false ?_ fun h => toList_ne_cons_cons d'.video t s _ h.2.1
        simp [Draft.add?, hvideo]
    | content s =>
      cases hcontent : d.content with
      | none => simp [Draft.add?, hcontent, ih, List.filterMap_cons, Member.id?,
        Member.video?, Member.content?]
      | some t =>
        refine iff_of_false ?_ fun h => toList_ne_cons_cons d'.content t s _ h.2.2
        simp [Draft.add?, hcontent]
    | other => exact ih

/-- **The fields of an object make up a comment if they name each part of it once.** -/
theorem describes_iff {ms : List Member} {c : Comment} :
    (∃ d, ms.foldlM Draft.add? {} = some d ∧ d.comment? = some c) ↔ Describes ms c := by
  simp only [foldlM_add?_eq_some_iff, Option.toList_none, List.nil_append]
  constructor
  · rintro ⟨d, ⟨hid, hvideo, hcontent⟩, hd⟩
    rw [Draft.comment?] at hd
    split at hd
    · next id video content hid' hvideo' hcontent' =>
      cases hd
      rw [hid'] at hid
      rw [hvideo'] at hvideo
      rw [hcontent'] at hcontent
      exact ⟨hid.symm, hvideo.symm, hcontent.symm⟩
    · cases hd
  · rintro ⟨hid, hvideo, hcontent⟩
    exact ⟨⟨some c.id, some c.video, some c.content⟩,
      ⟨hid.symm, hvideo.symm, hcontent.symm⟩, rfl⟩

/-! ## Comments -/

theorem values?_eq_some_iff {c : Comment} {cs rest : List Char} :
    values? cs = some (c, rest) ↔ ∃ i s v t k e, Names c.id i ∧ Token ',' s ∧
      Literal c.video v ∧ Token ',' t ∧ Literal c.content k ∧ Token ']' e ∧
      cs = i ++ (s ++ (v ++ (t ++ (k ++ (e ++ rest))))) := by
  constructor
  · intro h
    obtain ⟨⟨id, afterId⟩, hid, h⟩ := Option.bind_eq_some_iff.1 h
    obtain ⟨u, hu, h⟩ := Option.bind_eq_some_iff.1 h
    obtain ⟨beforeVideo, hs, h⟩ := Option.bind_eq_some_iff.1 h
    obtain ⟨⟨video, afterVideo⟩, hvideo, h⟩ := Option.bind_eq_some_iff.1 h
    obtain ⟨beforeContent, ht, h⟩ := Option.bind_eq_some_iff.1 h
    obtain ⟨⟨content, afterContent⟩, hcontent, h⟩ := Option.bind_eq_some_iff.1 h
    obtain ⟨afterEnd, he, h⟩ := Option.map_eq_some_iff.1 h
    cases h
    obtain ⟨i, hi, hcs⟩ := Names.of_string? hid hu
    obtain ⟨s, hs, hafterId⟩ := (token?_eq_some_iff (by decide)).1 hs
    obtain ⟨v, hv, hbeforeVideo⟩ := string?_eq_some_iff.1 hvideo
    obtain ⟨t, ht, hafterVideo⟩ := (token?_eq_some_iff (by decide)).1 ht
    obtain ⟨k, hk, hbeforeContent⟩ := string?_eq_some_iff.1 hcontent
    obtain ⟨e, he, hafterContent⟩ := (token?_eq_some_iff (by decide)).1 he
    refine ⟨i, s, v, t, k, e, hi, hs, hv, ht, hk, he, ?_⟩
    rw [← hafterContent, ← hbeforeContent, ← hafterVideo, ← hbeforeVideo, ← hafterId]
    exact hcs
  · rintro ⟨i, s, v, t, k, e, hi, hs, hv, ht, hk, he, rfl⟩
    obtain ⟨id, hid, hu⟩ := hi.exists_string? (s ++ (v ++ (t ++ (k ++ (e ++ rest)))))
    rw [values?, hid, Option.bind_some, hu, Option.bind_some, token?_eq_some hs (by decide),
      Option.bind_some, hv.string?, Option.bind_some, token?_eq_some ht (by decide),
      Option.bind_some, hk.string?, Option.bind_some, token?_eq_some he (by decide),
      Option.map_some, String.ofList_toList, String.ofList_toList]

/-- **What is read as a comment has one of its two forms.** -/
theorem Form.of_comment? {c : Comment} {cs rest : List Char} (h : comment? cs = some (c, rest)) :
    ∃ f, Form c f ∧ cs = f ++ rest := by
  rw [comment?] at h
  split at h
  · next afterBrace hbrace =>
    obtain ⟨⟨d, afterObject⟩, hfields, h⟩ := Option.bind_eq_some_iff.1 h
    obtain ⟨_, hd, heq⟩ := Option.map_eq_some_iff.1 h
    cases heq
    obtain ⟨o, ho, rfl⟩ := (token?_eq_some_iff (by decide)).1 hbrace
    obtain ⟨ms, fs, e, hfs, he, rfl, hfold⟩ := Fields.of_fields? hfields
    exact ⟨o ++ (fs ++ e), .object ho hfs (describes_iff.1 ⟨d, hfold, hd⟩) he, by simp⟩
  · obtain ⟨afterBracket, hbracket, hvalues⟩ := Option.bind_eq_some_iff.1 h
    obtain ⟨o, ho, rfl⟩ := (token?_eq_some_iff (by decide)).1 hbracket
    obtain ⟨i, s, v, t, k, e, hi, hs, hv, ht, hk, he, rfl⟩ := values?_eq_some_iff.1 hvalues
    exact ⟨_, .array ho hi hs hv ht hk he, by simp⟩

/-- **A comment in either form is read.** -/
theorem Form.comment? {c : Comment} {f : List Char} (h : Form c f) (rest : List Char) :
    comment? (f ++ rest) = some (c, rest) := by
  cases h with
  | @object ms o fs e ho hfs hdescribes he =>
    obtain ⟨d, hfold, hd⟩ := describes_iff.2 hdescribes
    rw [List.append_assoc, List.append_assoc, Page.comment?, token?_eq_some ho (by decide)]
    change (Page.fields? {} (fs ++ (e ++ rest))).bind _ = _
    rw [hfs.fields? he hfold, Option.bind_some, hd, Option.map_some]
  | @array o i s v t k e ho hi hs hv ht hk he =>
    simp only [List.append_assoc]
    rw [Page.comment?, token?_eq_none ho (by decide) (by decide)]
    change (token? '[' (o ++ (i ++ (s ++ (v ++ (t ++ (k ++ (e ++ rest)))))))).bind _ = _
    rw [token?_eq_some ho (by decide)]
    exact values?_eq_some_iff.2 ⟨i, s, v, t, k, e, hi, hs, hv, ht, hk, he, rfl⟩

/-- A comment starts with a bracket of either kind. -/
theorem Form.starts {c : Comment} {f : List Char} (h : Form c f) :
    ∃ (frame : Frame) (o more : List Char), Token frame.opening o ∧ f = o ++ more := by
  cases h with
  | object ho => exact ⟨.object, _, _, ho, rfl⟩
  | array ho => exact ⟨.array, _, _, ho, rfl⟩

/-! ## Pages -/

/-- What a comment leads to. -/
theorem comments?_eq {cs : List Char} :
    comments? cs = (Page.comment? cs).bind fun r => match token? ']' r.2 with
      | some rest => some ([r.1], rest)
      | none =>
        (token? ',' r.2).bind fun rest => (comments? rest).map fun s => (r.1 :: s.1, s.2) := by
  cases h : Page.comment? cs with
  | none =>
    rw [comments?]
    split
    · rfl
    · next h' => rw [h] at h'; cases h'
  | some r => exact comments?_of_comment? h

/-- **What is read up to the end of a page are comments.** -/
theorem Forms.of_comments? {page : List Comment} {cs rest : List Char}
    (h : comments? cs = some (page, rest)) :
    ∃ fs e, Forms page fs ∧ Token ']' e ∧ cs = fs ++ (e ++ rest) := by
  induction hn : cs.length using Nat.strong_induction_on generalizing page cs with
  | _ n ih =>
    rw [comments?_eq] at h
    obtain ⟨⟨c, afterComment⟩, hcomment, hmore⟩ := Option.bind_eq_some_iff.1 h
    obtain ⟨f, hf, rfl⟩ := Form.of_comment? hcomment
    simp only at hmore
    cases hend : token? ']' afterComment with
    | some rest' =>
      rw [hend] at hmore
      cases hmore
      obtain ⟨e, he, rfl⟩ := (token?_eq_some_iff (by decide)).1 hend
      exact ⟨f, e, .last hf, he, rfl⟩
    | none =>
      rw [hend] at hmore
      obtain ⟨more, hcomma, hrest⟩ := Option.bind_eq_some_iff.1 hmore
      obtain ⟨⟨page, rest'⟩, hpage, heq⟩ := Option.map_eq_some_iff.1 hrest
      cases heq
      obtain ⟨s, hs, rfl⟩ := (token?_eq_some_iff (by decide)).1 hcomma
      -- The comma alone makes the text that is left shorter.
      have hlt : more.length < n := by
        have := hs.length_pos
        rw [← hn, List.length_append, List.length_append]
        omega
      obtain ⟨fs, e, hfs, he, rfl⟩ := ih _ hlt hpage rfl
      exact ⟨f ++ (s ++ fs), e, .cons hf hs hfs, he, by simp⟩

/-- **Comments are read up to the end of their page.** -/
theorem Forms.comments? {page : List Comment} {fs e : List Char} (h : Forms page fs)
    (he : Token ']' e) (rest : List Char) :
    comments? (fs ++ (e ++ rest)) = some (page, rest) := by
  induction h with
  | last hf =>
    rw [comments?_of_comment? (hf.comment? _), token?_eq_some he (by decide)]
  | @cons c page f s fs hf hs _ ih =>
    rw [List.append_assoc, List.append_assoc, comments?_of_comment? (hf.comment? _),
      token?_eq_none hs (by decide) (by decide)]
    change (token? ',' _).bind _ = _
    rw [token?_eq_some hs (by decide), Option.bind_some, ih]
    rfl

theorem Forms.token?_eq_none {page : List Comment} {fs : List Char} (h : Forms page fs)
    (rest : List Char) : token? ']' (fs ++ rest) = none := by
  have hform : ∀ {c f} (rest : List Char), Form c f → token? ']' (f ++ rest) = none := by
    intro c f rest hf
    obtain ⟨frame, o, more, ho, rfl⟩ := hf.starts
    rw [List.append_assoc]
    exact Page.token?_eq_none ho frame.isSpace_opening (by cases frame <;> decide) _
  cases h with
  | last hf => exact hform rest hf
  | cons hf =>
    rw [List.append_assoc]
    exact hform _ hf

theorem decodeList?_eq_some_iff {page : List Comment} {cs : List Char} :
    decodeList? cs = some page ↔ Layout page cs := by
  simp only [decodeList?, Option.bind_eq_some_iff, Option.ite_none_right_eq_some, trim_eq_nil_iff,
    Option.some.injEq]
  constructor
  · rintro ⟨⟨_, b⟩, hpage, hb, rfl⟩
    obtain ⟨afterBracket, hbracket, hmore⟩ := Option.bind_eq_some_iff.1 hpage
    obtain ⟨o, ho, rfl⟩ := (token?_eq_some_iff (by decide)).1 hbracket
    cases hempty : token? ']' afterBracket with
    | some rest =>
      rw [hempty] at hmore
      cases hmore
      obtain ⟨e, he, rfl⟩ := (token?_eq_some_iff (by decide)).1 hempty
      exact .empty ho he hb
    | none =>
      rw [hempty] at hmore
      obtain ⟨fs, e, hfs, he, rfl⟩ := Forms.of_comments? hmore
      exact .comments ho hfs he hb
  · intro h
    cases h with
    | @empty o e b ho he hb =>
      refine ⟨([], b), ?_, hb, rfl⟩
      rw [page?, token?_eq_some ho (by decide), Option.bind_some, token?_eq_some he (by decide)]
    | @comments _ o fs e b ho hfs he hb =>
      refine ⟨(page, b), ?_, hb, rfl⟩
      rw [page?, token?_eq_some ho (by decide), Option.bind_some, hfs.token?_eq_none]
      exact hfs.comments? he b

/-- A text is a layout of one page at most. -/
theorem Layout.unique {page page' : List Comment} {cs : List Char} (h : Layout page cs)
    (h' : Layout page' cs) : page = page' :=
  Option.some.inj ((decodeList?_eq_some_iff.2 h).symm.trans (decodeList?_eq_some_iff.2 h'))

/-- **A page is read from its layouts, and from no other text.** -/
theorem decodes_iff_layout (text : String) (page : List Comment) :
    decode? text = some page ↔ Layout page text.toList :=
  decodeList?_eq_some_iff

end VideoComments.Page

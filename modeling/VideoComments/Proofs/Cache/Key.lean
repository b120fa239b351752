import VideoComments.Cache.Key
import VideoComments.Proofs.Text.Decimal

/-!
# Keys do not collide

A video's name stands unescaped at the front of its keys and may hold anything, delimiters and whole
keys included. Keys are told apart from their ends: a page's key ends with four numbers, each behind
a name and an equals sign, and no number holds an equals sign (`page_injective`). The last character
of a page's key is a digit, that of a counter's key a letter (`page_ne_version`). So a key says what
is kept under it (`Item.key_eq_iff`).
-/

namespace VideoComments.Cache.Key

open Decimal (signedDigits)

/-! ## Reading a key from its end -/

/-- The last number of a key, and what stands before it. -/
theorem append_number_injective (name : List Char) {a b : List Char} {i j : Int}
    (h : a ++ (name ++ '=' :: signedDigits i) = b ++ (name ++ '=' :: signedDigits j)) :
    a = b ∧ i = j := by
  have hi : ∀ i, '=' ∉ signedDigits i := Decimal.notMem_signedDigits (by decide) (by decide)
  rw [← List.append_assoc, ← List.append_assoc] at h
  obtain ⟨hab, hij⟩ := Text.append_cons_injective h (hi i) (hi j)
  exact ⟨List.append_cancel_right hab, Decimal.signedDigits_injective hij⟩

theorem toList_ofVideo (video : String) :
    (ofVideo video).toList = "comments:video_id=".toList ++ video.toList :=
  String.toList_append

theorem toList_version (video : String) :
    (version video).toList = (ofVideo video).toList ++ ":version".toList :=
  String.toList_append

/-- A page's key, its numbers set apart. -/
theorem toList_page (video : String) (g v l o : Int) :
    (page video g v l o).toList =
      ((((ofVideo video).toList ++ (":generation".toList ++ '=' :: signedDigits g)) ++
        (":version".toList ++ '=' :: signedDigits v)) ++
        (":limit".toList ++ '=' :: signedDigits l)) ++
        (":offset".toList ++ '=' :: signedDigits o) := by
  have hg : ":generation=".toList = ":generation".toList ++ ['='] := by decide
  have hv : ":version=".toList = ":version".toList ++ ['='] := by decide
  have hl : ":limit=".toList = ":limit".toList ++ ['='] := by decide
  have ho : ":offset=".toList = ":offset".toList ++ ['='] := by decide
  simp only [page, Decimal.ofInt, String.toList_append, String.toList_ofList, hg, hv, hl, ho,
    List.append_assoc, List.cons_append, List.nil_append]

/-! ## Injectivity -/

theorem ofVideo_injective {u v : String} (h : ofVideo u = ofVideo v) : u = v := by
  have h := congrArg String.toList h
  rw [toList_ofVideo, toList_ofVideo] at h
  exact String.toList_inj.1 (List.append_cancel_left h)

theorem version_injective {u v : String} (h : version u = version v) : u = v := by
  have h := congrArg String.toList h
  rw [toList_version, toList_version] at h
  exact ofVideo_injective (String.toList_inj.1 (List.append_cancel_right h))

/-- **A page's key determines the page.** -/
theorem page_injective {u u' : String} {g g' v v' l l' o o' : Int}
    (h : page u g v l o = page u' g' v' l' o') :
    u = u' ∧ g = g' ∧ v = v' ∧ l = l' ∧ o = o' := by
  have h := congrArg String.toList h
  rw [toList_page, toList_page] at h
  obtain ⟨h, ho⟩ := append_number_injective _ h
  obtain ⟨h, hl⟩ := append_number_injective _ h
  obtain ⟨h, hv⟩ := append_number_injective _ h
  obtain ⟨h, hg⟩ := append_number_injective _ h
  exact ⟨ofVideo_injective (String.toList_inj.1 h), hg, hv, hl, ho⟩

/-! ## Kinds of keys -/

theorem getLast?_version (video : String) : (version video).toList.getLast? = some 'n' := by
  rw [toList_version, List.getLast?_append]
  rfl

theorem mem_of_getLast?_page {video : String} {g v l o : Int} {c : Char}
    (h : (page video g v l o).toList.getLast? = some c) : c = '=' ∨ c ∈ signedDigits o := by
  rw [toList_page, ← List.append_assoc, List.getLast?_append, List.getLast?_cons,
    Option.some_or] at h
  exact List.mem_cons.1 (List.mem_of_getLast? (List.getLast?_cons.trans h))

theorem page_ne_version (u video : String) (g v l o : Int) : page u g v l o ≠ version video := by
  intro h
  have hlast := getLast?_version video
  rw [← h] at hlast
  rcases mem_of_getLast?_page hlast with h | h
  · exact absurd h (by decide)
  · exact Decimal.notMem_signedDigits (by decide) (by decide) o h

/-- No key of a video is the counter of all videos: they differ in their tenth character. -/
theorem ofVideo_append_ne_generation (video : String) (rest : List Char) :
    (ofVideo video).toList ++ rest ≠ generation.toList := by
  rw [toList_ofVideo]
  intro h
  have h := congrArg (fun cs => cs[9]?) h
  simp [generation] at h

theorem version_ne_generation (video : String) : version video ≠ generation := by
  intro h
  have h := congrArg String.toList h
  rw [toList_version] at h
  exact ofVideo_append_ne_generation video _ h

theorem page_ne_generation (u : String) (g v l o : Int) : page u g v l o ≠ generation := by
  intro h
  have h := congrArg String.toList h
  rw [toList_page] at h
  simp only [List.append_assoc] at h
  exact ofVideo_append_ne_generation u _ h

/-- The keys under which counters are kept. -/
def IsCounter (key : String) : Prop := key = generation ∨ ∃ video, key = version video

theorem isCounter_generation : IsCounter generation := .inl rfl

theorem isCounter_version (video : String) : IsCounter (version video) := .inr ⟨video, rfl⟩

theorem page_ne_counter {key : String} (h : IsCounter key) (u : String) (g v l o : Int) :
    page u g v l o ≠ key := by
  rcases h with rfl | ⟨video, rfl⟩
  · exact page_ne_generation u g v l o
  · exact page_ne_version u video g v l o

end VideoComments.Cache.Key

namespace VideoComments.Cache

/-- What a page is cached under. -/
structure PageName where
  video : String
  generation : Int
  version : Int
  limit : Int
  offset : Int
  deriving DecidableEq

/-- The key of a page. -/
def PageName.key (p : PageName) : String :=
  Key.page p.video p.generation p.version p.limit p.offset

theorem PageName.key_injective {p q : PageName} (h : p.key = q.key) : p = q := by
  cases p
  cases q
  obtain ⟨rfl, rfl, rfl, rfl, rfl⟩ := Key.page_injective h
  rfl

theorem PageName.key_ne_counter (p : PageName) {key : String} (h : Key.IsCounter key) :
    p.key ≠ key :=
  Key.page_ne_counter h _ _ _ _ _

/-- What the comment cache keeps a value for. -/
inductive Item
  | generation
  | version (video : String)
  | page (name : PageName)
  deriving DecidableEq

/-- The key that the value is kept under. -/
def Item.key : Item → String
  | .generation => Key.generation
  | .version video => Key.version video
  | .page name => name.key

/-- **No two items share a key**, whatever the videos are called and whatever the counters and the
limits are. -/
theorem Item.key_eq_iff (a b : Item) : a.key = b.key ↔ a = b := by
  refine ⟨fun h => ?_, congrArg Item.key⟩
  cases a with
  | generation =>
    cases b with
    | generation => rfl
    | version video => exact absurd h.symm (Key.version_ne_generation video)
    | page name => exact absurd h.symm (name.key_ne_counter Key.isCounter_generation)
  | version video =>
    cases b with
    | generation => exact absurd h (Key.version_ne_generation video)
    | version video' => rw [Key.version_injective h]
    | page name => exact absurd h.symm (name.key_ne_counter (Key.isCounter_version video))
  | page name =>
    cases b with
    | generation => exact absurd h (name.key_ne_counter Key.isCounter_generation)
    | version video => exact absurd h (name.key_ne_counter (Key.isCounter_version video))
    | page name' => rw [PageName.key_injective h]

end VideoComments.Cache

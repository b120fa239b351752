import VideoComments.Proofs.Json.Scalar

/-!
# Values that are passed over

`Derives` is the grammar of JSON values, of whatever depth: scalars, arrays and objects, with white
space before every token. What is derived is passed over as a whole (`Derives.skipped`), by
induction on the derivation. What is passed over is derived (`reads`), by induction on how much text
is left: what the stack still demands tells a value from an item and from the items up to a closing
bracket.
-/

namespace VideoComments.Json

/-! ## The grammar of values -/

/-- A token of one character, which white space may precede. -/
def Token (c : Char) (cs : List Char) : Prop := ∃ b, Blank b ∧ cs = b ++ [c]

/-- A name in an object that nobody keeps. -/
def Key (cs : List Char) : Prop := ∃ b s, Blank b ∧ Passable s ∧ cs = b ++ '"' :: s ++ ['"']

namespace Frame

/-- The bracket that opens an array or an object. -/
def opening : Frame → Char
  | array => '['
  | object => '{'

/-- The bracket that closes it. -/
def closing : Frame → Char
  | array => ']'
  | object => '}'

/-- What an item starts with. -/
def item : Frame → Expect
  | array => .value
  | object => .key

/-- What may stand behind the opening bracket. -/
def itemOrEnd : Frame → Expect
  | array => .valueOrEnd
  | object => .keyOrEnd

end Frame

/-- What a text can be a part of. -/
inductive Part
  | value
  /-- An element of an array, or a member of an object. -/
  | item (f : Frame)
  /-- What stands between brackets, unless nothing does. -/
  | items (f : Frame)

/-- The texts of well-formed values and of their parts. -/
inductive Derives : Part → List Char → Prop
  | scalar {b s : List Char} (hb : Blank b) (h : Scalar s) : Derives .value (b ++ s)
  | empty {f : Frame} {o c : List Char} (ho : Token f.opening o) (hc : Token f.closing c) :
      Derives .value (o ++ c)
  | bracketed {f : Frame} {o is c : List Char} (ho : Token f.opening o)
      (h : Derives (.items f) is) (hc : Token f.closing c) : Derives .value (o ++ (is ++ c))
  | element {v : List Char} (h : Derives .value v) : Derives (.item .array) v
  | member {k s v : List Char} (hk : Key k) (hs : Token ':' s) (h : Derives .value v) :
      Derives (.item .object) (k ++ (s ++ v))
  | last {f : Frame} {i : List Char} (h : Derives (.item f) i) : Derives (.items f) i
  | cons {f : Frame} {i s is : List Char} (h : Derives (.item f) i) (hs : Token ',' s)
      (hmore : Derives (.items f) is) : Derives (.items f) (i ++ (s ++ is))

/-! ## Tokens -/

theorem exists_token {c : Char} {cs rest : List Char} (h : trim cs = c :: rest) :
    ∃ t, Token c t ∧ cs = t ++ rest := by
  obtain ⟨b, hb, hcs⟩ := exists_blank cs
  refine ⟨b ++ [c], ⟨b, hb, rfl⟩, ?_⟩
  rw [List.append_assoc, List.singleton_append, ← h]
  exact hcs

theorem Token.trim {c : Char} {t : List Char} (h : Token c t) (hc : isSpace c = false)
    (rest : List Char) : trim (t ++ rest) = c :: rest := by
  obtain ⟨b, hb, rfl⟩ := h
  rw [List.append_assoc]
  exact (trim_eq_cons_iff hc).2 ⟨b, hb, rfl⟩

theorem Token.length_pos {c : Char} {t : List Char} (h : Token c t) : 0 < t.length := by
  obtain ⟨b, -, rfl⟩ := h
  simp

/-- A separator or a closing bracket ends a value. -/
theorem Token.ends {c : Char} {t : List Char} (h : Token c t) (hc : c = ',' ∨ c = ']' ∨ c = '}')
    (rest : List Char) : Ends (t ++ rest) := by
  obtain ⟨b, hb, rfl⟩ := h
  cases b with
  | nil =>
    intro d hd
    cases hd
    exact .inr hc
  | cons s b =>
    intro d hd
    cases hd
    exact .inl (isSpace_iff.2 (hb s List.mem_cons_self))

theorem Key.trim {k : List Char} (h : Key k) (rest : List Char) :
    ∃ s, Passable s ∧ Json.trim (k ++ rest) = '"' :: (s ++ '"' :: rest) := by
  obtain ⟨b, s, hb, hs, rfl⟩ := h
  exact ⟨s, hs, (trim_eq_cons_iff (by decide)).2 ⟨b, hb, by simp⟩⟩

theorem Frame.isSpace_opening (f : Frame) : isSpace f.opening = false := by cases f <;> rfl

theorem Frame.isSpace_closing (f : Frame) : isSpace f.closing = false := by cases f <;> rfl

theorem Frame.ends_closing {f : Frame} {t : List Char} (h : Token f.closing t)
    (rest : List Char) : Ends (t ++ rest) := by
  cases f with
  | array => exact h.ends (.inr (.inl rfl)) rest
  | object => exact h.ends (.inr (.inr rfl)) rest

/-- No part of a value starts with a closing bracket. -/
theorem Derives.trim {part : Part} {cs : List Char} (h : Derives part cs) (rest : List Char) :
    ∃ c more, Json.trim (cs ++ rest) = c :: more ∧ ∀ f : Frame, c ≠ f.closing := by
  induction h generalizing rest with
  | @scalar b s hb hs =>
    obtain ⟨c, more, rfl, hspace, hc⟩ := hs.exists_cons
    refine ⟨c, more ++ rest, (trim_eq_cons_iff hspace).2 ⟨b, hb, by simp⟩, ?_⟩
    rintro f rfl
    cases f <;> exact hc (by decide)
  | @empty f _ _ ho | @bracketed f _ _ _ ho =>
    rw [List.append_assoc]
    exact ⟨_, _, ho.trim f.isSpace_opening _, by cases f <;> rintro (_ | _) <;> decide⟩
  | member hk =>
    rw [List.append_assoc]
    obtain ⟨s, -, htrim⟩ := hk.trim _
    exact ⟨_, _, htrim, by rintro (_ | _) <;> decide⟩
  | element _ ih | last _ ih => exact ih rest
  | cons _ _ _ ih =>
    rw [List.append_assoc]
    exact ih _

/-! ## Steps -/

section Steps

variable {stack : List Frame} {cs rest : List Char}

/-- Passing over is one step after the other. -/
theorem skip_eq_bind {expect : Expect} (hgo : ¬ (stack = [] ∧ expect = .separator)) :
    skip stack expect cs = (step stack expect cs).bind fun r => skip r.1 r.2.1 r.2.2 := by
  rw [skip, if_neg hgo]
  split <;> next h => rw [h]; rfl

theorem skip_of_step {stack' : List Frame} {expect expect' : Expect} {more : List Char}
    (hgo : ¬ (stack = [] ∧ expect = .separator))
    (h : step stack expect cs = some (stack', expect', more)) :
    skip stack expect cs = skip stack' expect' more := by
  rw [skip_eq_bind hgo, h]
  rfl

theorem skip_of_step_eq_none {expect : Expect} (hgo : ¬ (stack = [] ∧ expect = .separator))
    (h : step stack expect cs = none) : skip stack expect cs = none := by
  rw [skip_eq_bind hgo, h]
  rfl

theorem skip_separator_nil (cs : List Char) : skip [] .separator cs = some cs := by
  rw [skip, if_pos ⟨rfl, rfl⟩]

theorem skip_opening {f : Frame} {more : List Char} (h : trim cs = f.opening :: more) :
    skip stack .value cs = skip (f :: stack) f.itemOrEnd more := by
  cases f <;> exact skip_of_step (by simp) (by unfold step; rw [h]; rfl)

theorem skip_empty {f : Frame} {more : List Char} (h : trim cs = f.closing :: more) :
    skip (f :: stack) f.itemOrEnd cs = skip stack .separator more := by
  cases f <;> exact skip_of_step (by simp [Frame.itemOrEnd]) (by unfold step; rw [h]; rfl)

/-- Where the closing bracket may stand, items may also begin. -/
theorem skip_itemOrEnd {f : Frame} (h : ∀ more, trim cs ≠ f.closing :: more) :
    skip stack f.itemOrEnd cs = skip stack f.item cs := by
  have hstep : step stack f.itemOrEnd cs = step stack f.item cs := by
    unfold step
    generalize trim cs = ts at h
    cases f <;> simp only [Frame.closing, Frame.itemOrEnd, Frame.item] at * <;> split <;> simp_all
  have hgo : ¬ (stack = [] ∧ f.itemOrEnd = .separator) := by cases f <;> simp [Frame.itemOrEnd]
  have hgo' : ¬ (stack = [] ∧ f.item = .separator) := by cases f <;> simp [Frame.item]
  rw [skip_eq_bind hgo, skip_eq_bind hgo', hstep]

theorem skip_comma {f : Frame} {more : List Char} (h : trim cs = ',' :: more) :
    skip (f :: stack) .separator cs = skip (f :: stack) f.item more := by
  cases f <;> exact skip_of_step (by simp) (by unfold step; rw [h]; rfl)

theorem skip_closing {f : Frame} {more : List Char} (h : trim cs = f.closing :: more) :
    skip (f :: stack) .separator cs = skip stack .separator more := by
  cases f <;> exact skip_of_step (by simp) (by unfold step; rw [h]; rfl)

theorem skip_colon {more : List Char} (h : trim cs = ':' :: more) :
    skip stack .colon cs = skip stack .value more :=
  skip_of_step (by simp) (by unfold step; rw [h]; rfl)

/-- A name in an object is passed over as a string. -/
theorem step_key {more : List Char} (h : trim cs = '"' :: more) :
    step stack .key cs = (skipString more).map (stack, .colon, ·) := by
  unfold step
  rw [h]
  rfl

theorem skip_key {s more : List Char} (hs : Passable s) (h : trim cs = '"' :: (s ++ '"' :: more)) :
    skip stack .key cs = skip stack .colon more := by
  have hstring : skipString (s ++ '"' :: more) = some more := skipString_eq_some_iff.2 ⟨s, hs, rfl⟩
  exact skip_of_step (by simp) (by rw [step_key h, hstring, Option.map_some])

/-- A value that starts with no bracket is a scalar. -/
theorem step_value (h : ∀ (f : Frame) more, trim cs ≠ f.opening :: more) :
    step stack .value cs = (skipScalar (trim cs)).map (stack, .separator, ·) := by
  have harray : ∀ more, trim cs ≠ '[' :: more := h .array
  have hobject : ∀ more, trim cs ≠ '{' :: more := h .object
  unfold step
  split <;> simp_all

theorem skip_scalar {b s : List Char} (hb : Blank b) (hs : Scalar s) (hrest : Ends rest) :
    skip stack .value (b ++ s ++ rest) = skip stack .separator rest := by
  obtain ⟨c, more, hcons, hspace, hc⟩ := hs.exists_cons
  have htrim : trim (b ++ s ++ rest) = s ++ rest := by
    rw [hcons, List.append_assoc]
    exact (trim_eq_cons_iff hspace).2 ⟨b, hb, rfl⟩
  refine skip_of_step (by simp) ?_
  rw [step_value, htrim, hs.skipScalar hrest, Option.map_some]
  rintro f tail heq
  rw [htrim, hcons] at heq
  cases heq
  cases f <;> exact hc (by decide)

end Steps

/-! ## What is derived is passed over -/

/-- Passing over goes over a part of a value as a whole: a value and an item up to what may stand
behind them, items up to what may stand behind their closing bracket. -/
def Skipped : Part → List Char → Prop
  | .value, v => ∀ stack rest, Ends rest →
      skip stack .value (v ++ rest) = skip stack .separator rest
  | .item f, i => ∀ stack rest, Ends rest →
      skip (f :: stack) f.item (i ++ rest) = skip (f :: stack) .separator rest
  | .items f, is => ∀ stack c rest, Token f.closing c →
      skip (f :: stack) f.item (is ++ (c ++ rest)) = skip stack .separator rest

/-- **What is derived is passed over as a whole.** -/
theorem Derives.skipped {part : Part} {cs : List Char} (h : Derives part cs) :
    Skipped part cs := by
  induction h with
  | scalar hb hs => exact fun stack rest hrest => skip_scalar hb hs hrest
  | @empty f o c ho hc =>
    intro stack rest _
    rw [List.append_assoc, skip_opening (ho.trim f.isSpace_opening _),
      skip_empty (hc.trim f.isSpace_closing _)]
  | @bracketed f o is c ho h hc ih =>
    intro stack rest _
    obtain ⟨d, more, htrim, hd⟩ := h.trim (c ++ rest)
    rw [List.append_assoc, List.append_assoc, skip_opening (ho.trim f.isSpace_opening _),
      skip_itemOrEnd, ih stack c rest hc]
    rw [htrim]
    rintro _ heq
    cases heq
    exact hd f rfl
  | element _ ih => exact fun stack rest hrest => ih (.array :: stack) rest hrest
  | member hk hs _ ih =>
    intro stack rest hrest
    obtain ⟨s, hpassable, htrim⟩ := hk.trim (_ ++ (_ ++ rest))
    rw [List.append_assoc, List.append_assoc, Frame.item, skip_key hpassable htrim,
      skip_colon (hs.trim (by decide) _), ih _ _ hrest]
  | @last f i _ ih =>
    intro stack c rest hc
    rw [ih _ _ (Frame.ends_closing hc rest), skip_closing (hc.trim f.isSpace_closing _)]
  | cons _ hs _ ih ihMore =>
    intro stack c rest hc
    rw [List.append_assoc, List.append_assoc, ih _ _ (hs.ends (.inl rfl) _),
      skip_comma (hs.trim (by decide) _), ihMore stack c rest hc]

/-! ## What is passed over is derived -/

section Cases

variable {stack : List Frame} {cs rest : List Char}

/-- A value is a scalar, or starts with a bracket. -/
theorem skip_value_cases (h : skip stack .value cs = some rest) :
    (∃ f more, trim cs = Frame.opening f :: more ∧
        skip (f :: stack) f.itemOrEnd more = some rest) ∨
      ∃ more, skipScalar (trim cs) = some more ∧ skip stack .separator more = some rest := by
  by_cases hopening : ∃ f more, trim cs = Frame.opening f :: more
  · obtain ⟨f, more, htrim⟩ := hopening
    exact .inl ⟨f, more, htrim, skip_opening htrim ▸ h⟩
  · refine .inr ?_
    push Not at hopening
    rw [skip_eq_bind (by simp), step_value hopening] at h
    obtain ⟨_, hstep, h⟩ := Option.bind_eq_some_iff.1 h
    obtain ⟨more, hscalar, rfl⟩ := Option.map_eq_some_iff.1 hstep
    exact ⟨more, hscalar, h⟩

/-- A member starts with its name and a colon. -/
theorem skip_key_cases (h : skip stack .key cs = some rest) :
    ∃ k t more, Key k ∧ Token ':' t ∧ cs = k ++ (t ++ more) ∧
      skip stack .value more = some rest := by
  by_cases hquote : ∃ more, trim cs = '"' :: more
  · obtain ⟨afterQuote, htrim⟩ := hquote
    obtain ⟨afterName, hname, hskip⟩ : ∃ afterName, skipString afterQuote = some afterName ∧
        skip stack .colon afterName = some rest := by
      rw [skip_eq_bind (by simp), step_key htrim, Option.bind_map] at h
      exact Option.bind_eq_some_iff.1 h
    obtain ⟨s, hs, rfl⟩ := skipString_eq_some_iff.1 hname
    obtain ⟨b, hb, rfl⟩ := (trim_eq_cons_iff (by decide)).1 htrim
    by_cases hcolon : ∃ more, trim afterName = ':' :: more
    · obtain ⟨more, hcolon⟩ := hcolon
      obtain ⟨t, ht, rfl⟩ := exists_token hcolon
      exact ⟨b ++ '"' :: s ++ ['"'], t, more, ⟨b, s, hb, hs, rfl⟩, ht, by simp,
        skip_colon hcolon ▸ hskip⟩
    · have hnone : step stack .colon afterName = none := by
        unfold step
        split <;> simp_all
      rw [skip_of_step_eq_none (by simp) hnone] at hskip
      cases hskip
  · have hnone : step stack .key cs = none := by
      unfold step
      split <;> simp_all
    rw [skip_of_step_eq_none (by simp) hnone] at h
    cases h

/-- Behind an item comes another one, or the closing bracket. -/
theorem skip_separator_cases {f : Frame} (h : skip (f :: stack) .separator cs = some rest) :
    (∃ more, trim cs = ',' :: more ∧ skip (f :: stack) f.item more = some rest) ∨
      ∃ more, trim cs = f.closing :: more ∧ skip stack .separator more = some rest := by
  by_cases hcomma : ∃ more, trim cs = ',' :: more
  · obtain ⟨more, htrim⟩ := hcomma
    exact .inl ⟨more, htrim, skip_comma htrim ▸ h⟩
  by_cases hclosing : ∃ more, trim cs = f.closing :: more
  · obtain ⟨more, htrim⟩ := hclosing
    exact .inr ⟨more, htrim, skip_closing htrim ▸ h⟩
  have hnone : step (f :: stack) .separator cs = none := by
    unfold step
    cases f <;> simp only [Frame.closing] at hclosing <;> split <;> simp_all
  rw [skip_of_step_eq_none (by simp) hnone] at h
  cases h

end Cases

/-- A text that is passed over starts with the part that is expected. -/
def Reads : Part → List Char → Prop
  | .value, cs => ∀ stack rest, skip stack .value cs = some rest →
      ∃ v more, Derives .value v ∧ cs = v ++ more ∧ skip stack .separator more = some rest
  | .item f, cs => ∀ stack rest, skip (f :: stack) f.item cs = some rest →
      ∃ i more, Derives (.item f) i ∧ cs = i ++ more ∧
        skip (f :: stack) .separator more = some rest
  | .items f, cs => ∀ stack rest, skip (f :: stack) f.item cs = some rest →
      ∃ is c more, Derives (.items f) is ∧ Token f.closing c ∧ cs = is ++ (c ++ more) ∧
        skip stack .separator more = some rest

section Reads

variable {cs : List Char}

theorem reads_value (ih : ∀ part more, more.length < cs.length → Reads part more) :
    Reads .value cs := by
  intro stack rest h
  rcases skip_value_cases h with ⟨f, more, htrim, hmore⟩ | ⟨more, hscalar, hmore⟩
  · obtain ⟨o, ho, rfl⟩ := exists_token htrim
    have hlt : more.length < (o ++ more).length := by
      rw [List.length_append]
      exact Nat.lt_add_of_pos_left ho.length_pos
    by_cases hempty : ∃ tail, trim more = f.closing :: tail
    · obtain ⟨tail, htail⟩ := hempty
      rw [skip_empty htail] at hmore
      obtain ⟨c, hc, rfl⟩ := exists_token htail
      exact ⟨o ++ c, tail, .empty ho hc, (List.append_assoc _ _ _).symm, hmore⟩
    · push Not at hempty
      rw [skip_itemOrEnd hempty] at hmore
      obtain ⟨is, c, tail, his, hc, rfl, htail⟩ := ih (.items f) more hlt stack rest hmore
      exact ⟨o ++ (is ++ c), tail, .bracketed ho his hc, by simp, htail⟩
  · obtain ⟨b, hb, hcs⟩ := exists_blank cs
    obtain ⟨s, hs, htrim⟩ := Scalar.of_skipScalar hscalar
    refine ⟨b ++ s, more, .scalar hb hs, ?_, hmore⟩
    rw [List.append_assoc, ← htrim]
    exact hcs

theorem reads_item (hvalue : Reads .value cs)
    (ih : ∀ part more, more.length < cs.length → Reads part more) (f : Frame) :
    Reads (.item f) cs := by
  intro stack rest h
  cases f with
  | array =>
    obtain ⟨v, more, hv, hcs, hmore⟩ := hvalue _ rest h
    exact ⟨v, more, .element hv, hcs, hmore⟩
  | object =>
    obtain ⟨k, t, more, hk, ht, rfl, hmore⟩ := skip_key_cases h
    have hlt : more.length < (k ++ (t ++ more)).length := by
      have := ht.length_pos
      simp only [List.length_append]
      omega
    obtain ⟨v, tail, hv, rfl, htail⟩ := ih .value more hlt _ rest hmore
    exact ⟨k ++ (t ++ v), tail, .member hk ht hv, by simp, htail⟩

theorem reads_items {f : Frame} (hitem : Reads (.item f) cs)
    (ih : ∀ part more, more.length < cs.length → Reads part more) : Reads (.items f) cs := by
  intro stack rest h
  obtain ⟨i, more, hi, rfl, hmore⟩ := hitem stack rest h
  rcases skip_separator_cases hmore with ⟨tail, htrim, htail⟩ | ⟨tail, htrim, htail⟩
  · obtain ⟨s, hs, rfl⟩ := exists_token htrim
    have hlt : tail.length < (i ++ (s ++ tail)).length := by
      have := hs.length_pos
      simp only [List.length_append]
      omega
    obtain ⟨is, c, last, his, hc, rfl, hlast⟩ := ih (.items f) tail hlt stack rest htail
    exact ⟨i ++ (s ++ is), c, last, .cons hi hs his, hc, by simp, hlast⟩
  · obtain ⟨c, hc, rfl⟩ := exists_token htrim
    exact ⟨i, c, tail, .last hi, hc, rfl, htail⟩

end Reads

/-- **What is passed over is derived.** -/
theorem reads (part : Part) (cs : List Char) : Reads part cs := by
  induction hn : cs.length using Nat.strong_induction_on generalizing part cs with
  | _ n ih =>
    subst hn
    have ih : ∀ part more, more.length < cs.length → Reads part more :=
      fun part more hlt => ih _ hlt part more rfl
    -- An item may be as long as the text, but the items behind it and the parts of a value are not.
    have hvalue := reads_value ih
    cases part with
    | value => exact hvalue
    | item f => exact reads_item hvalue ih f
    | items f => exact reads_items (reads_item hvalue ih f) ih

/-! ## Values -/

/-- A value is passed over as a whole if what follows ends it. -/
theorem Derives.skipValue {v rest : List Char} (h : Derives .value v) (hrest : Ends rest) :
    skipValue (v ++ rest) = some rest := by
  rw [Json.skipValue, h.skipped [] rest hrest, skip_separator_nil]

/-- What is passed over is a value. -/
theorem Derives.of_skipValue {cs rest : List Char} (h : Json.skipValue cs = some rest) :
    ∃ v, Derives .value v ∧ cs = v ++ rest := by
  obtain ⟨v, more, hv, hcs, hmore⟩ := reads .value cs [] rest h
  rw [skip_separator_nil, Option.some.injEq] at hmore
  exact ⟨v, hv, hmore ▸ hcs⟩

end VideoComments.Json

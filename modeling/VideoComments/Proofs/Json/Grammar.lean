import Mathlib.Data.List.Forall2
import Mathlib.Data.List.TakeWhile
import VideoComments.Json.Value
import VideoComments.Proofs.Json.Literal

/-!
# The grammar of string literals

White space and string literals, as relations between a text and what it stands for, without regard
to how texts are read. The readers agree with them:

* a literal that is kept is read as the string that it spells (`readString_eq_some_iff`), where an
  escaped surrogate counts only as half of a pair;
* a literal that nobody keeps may have any four digits after `u` (`skipString_eq_some_iff`).
-/

namespace VideoComments.Json

open Hex (Denotes)

/-! ## White space -/

/-- Nothing but white space. -/
def Blank (cs : List Char) : Prop := ∀ c ∈ cs, c = ' ' ∨ c = '\t' ∨ c = '\n' ∨ c = '\r'

theorem isSpace_iff {c : Char} : isSpace c = true ↔ c = ' ' ∨ c = '\t' ∨ c = '\n' ∨ c = '\r' := by
  simp [isSpace, or_assoc]

theorem trim_eq_nil_iff {cs : List Char} : trim cs = [] ↔ Blank cs := by
  simp only [trim, List.dropWhile_eq_nil_iff, isSpace_iff, Blank]

/-- White space is passed over. -/
theorem trim_append {b : List Char} (hb : Blank b) (cs : List Char) : trim (b ++ cs) = trim cs :=
  List.dropWhile_append_of_pos fun c hc => isSpace_iff.2 (hb c hc)

/-- What is passed over is white space. -/
theorem exists_blank (cs : List Char) : ∃ b, Blank b ∧ cs = b ++ trim cs :=
  ⟨cs.takeWhile isSpace, fun _ hc => isSpace_iff.1 (List.mem_takeWhile_imp hc),
    List.takeWhile_append_dropWhile.symm⟩

/-- The next token starts with `c`. -/
theorem trim_eq_cons_iff {c : Char} (hc : isSpace c = false) {cs rest : List Char} :
    trim cs = c :: rest ↔ ∃ b, Blank b ∧ cs = b ++ c :: rest := by
  constructor
  · intro h
    obtain ⟨b, hb, hcs⟩ := exists_blank cs
    exact ⟨b, hb, h ▸ hcs⟩
  · rintro ⟨b, hb, rfl⟩
    rw [trim_append hb, trim, List.dropWhile_cons_of_neg (by rw [hc]; exact Bool.false_ne_true)]

/-! ## String literals -/

/-- Four digits that spell a code unit. -/
def CodeUnit (cs : List Char) (n : Nat) : Prop :=
  cs.length = 4 ∧ ∃ ds, List.Forall₂ Denotes cs ds ∧ n = Nat.ofDigits 16 ds.reverse

/-- What stands after a backslash for a character. -/
inductive Escapes (c : Char) : List Char → Prop
  | short {letter : Char} (h : (letter, c) ∈ shortEscapes) : Escapes c [letter]
  /-- A character of one code unit, which is no surrogate. -/
  | unit {cs : List Char} (h : CodeUnit cs c.toNat) : Escapes c ('u' :: cs)
  /-- A character of two code units, both of them escaped. -/
  | pair {cs ds : List Char} {high low : Nat} (hcs : CodeUnit cs high) (hds : CodeUnit ds low)
      (hhigh : 0xD800 ≤ high ∧ high ≤ 0xDBFF) (hlow : 0xDC00 ≤ low ∧ low ≤ 0xDFFF)
      (h : c.toNat = 0x10000 + (high - 0xD800) * 0x400 + (low - 0xDC00)) :
      Escapes c ('u' :: cs ++ '\\' :: 'u' :: ds)

/-- A character may stand for itself in a literal. -/
def Plain (c : Char) : Prop := 0x20 ≤ c.toNat ∧ c ≠ '"' ∧ c ≠ '\\'

/-- What stands between the quotes of a literal that is kept. -/
inductive Writes : List Char → List Char → Prop
  | nil : Writes [] []
  | plain {c : Char} {s cs : List Char} (hc : Plain c) (h : Writes s cs) : Writes (c :: s) (c :: cs)
  | escape {c : Char} {s e cs : List Char} (he : Escapes c e) (h : Writes s cs) :
      Writes (c :: s) ('\\' :: e ++ cs)

/-- What stands between the quotes of a literal that nobody keeps. -/
inductive Passable : List Char → Prop
  | nil : Passable []
  | plain {c : Char} {cs : List Char} (hc : Plain c) (h : Passable cs) : Passable (c :: cs)
  | short {letter c : Char} {cs : List Char} (hletter : (letter, c) ∈ shortEscapes)
      (h : Passable cs) : Passable ('\\' :: letter :: cs)
  | unit {u cs : List Char} {n : Nat} (hu : CodeUnit u n) (h : Passable cs) :
      Passable ('\\' :: 'u' :: u ++ cs)

/-! ### Code units -/

theorem CodeUnit.exists_digits {cs : List Char} {n : Nat} (h : CodeUnit cs n) :
    ∃ a b c d w x y z, cs = [a, b, c, d] ∧ Denotes a w ∧ Denotes b x ∧ Denotes c y ∧ Denotes d z ∧
      n = Nat.ofDigits 16 [z, y, x, w] := by
  obtain ⟨hlength, ds, hds, hn⟩ := h
  match cs, hlength with
  | [a, b, c, d], _ =>
    cases hds with | cons ha hds =>
    cases hds with | cons hb hds =>
    cases hds with | cons hc hds =>
    cases hds with | cons hd hds =>
    cases hds
    exact ⟨a, b, c, d, _, _, _, _, rfl, ha, hb, hc, hd, hn⟩

theorem CodeUnit.of_digits {a b c d : Char} {w x y z : Nat} (ha : Denotes a w) (hb : Denotes b x)
    (hc : Denotes c y) (hd : Denotes d z) : CodeUnit [a, b, c, d] (Nat.ofDigits 16 [z, y, x, w]) :=
  ⟨rfl, [w, x, y, z], .cons ha (.cons hb (.cons hc (.cons hd .nil))), rfl⟩

theorem CodeUnit.lt {cs : List Char} {n : Nat} (h : CodeUnit cs n) : n < 0x10000 := by
  obtain ⟨a, b, c, d, w, x, y, z, -, ha, hb, hc, hd, rfl⟩ := h.exists_digits
  have := ha.lt
  have := hb.lt
  have := hc.lt
  have := hd.lt
  simp only [Nat.ofDigits_cons, Nat.ofDigits_nil]
  omega

theorem hexUnit?_eq_some_iff {cs rest : List Char} {n : Nat} :
    hexUnit? cs = some (n, rest) ↔ ∃ u, CodeUnit u n ∧ cs = u ++ rest := by
  constructor
  · intro h
    rw [hexUnit?.eq_def] at h
    split at h
    · split at h
      · next ha hb hc hd =>
        cases h
        rw [Hex.digit?_eq_some_iff] at ha hb hc hd
        rw [Hex.ofDigits_eq]
        exact ⟨_, .of_digits ha hb hc hd, rfl⟩
      · cases h
    · cases h
  · rintro ⟨u, hu, rfl⟩
    obtain ⟨a, b, c, d, w, x, y, z, rfl, ha, hb, hc, hd, rfl⟩ := hu.exists_digits
    rw [← Hex.digit?_eq_some_iff] at ha hb hc hd
    simp only [List.cons_append, List.nil_append, hexUnit?, ha, hb, hc, hd, Hex.ofDigits_eq]
    rfl

/-! ### Escapes -/

theorem lookup_shortEscapes {letter c : Char} :
    shortEscapes.lookup letter = some c ↔ (letter, c) ∈ shortEscapes := by
  constructor
  · intro h
    obtain ⟨before, after, hsplit, -⟩ := List.lookup_eq_some_iff.1 h
    rw [hsplit]
    exact List.mem_append_right _ List.mem_cons_self
  · have all : ∀ p ∈ shortEscapes, shortEscapes.lookup p.1 = some p.2 := by decide
    exact all (letter, c)

theorem ne_of_mem_shortEscapes {letter c : Char} (h : (letter, c) ∈ shortEscapes) :
    letter ≠ 'u' := by
  have all : ∀ p ∈ shortEscapes, p.1 ≠ 'u' := by decide
  exact all _ h

theorem toNat_char {n : Nat} (h : n.isValidChar) : (Char.ofNat n).toNat = n := by
  rw [Char.ofNat, dif_pos h]
  rfl

/-- A character is no surrogate. -/
theorem isSurrogate_toNat (c : Char) :
    isHighSurrogate c.toNat = false ∧ isLowSurrogate c.toNat = false := by
  have hvalid : c.toNat < 0xD800 ∨ 0xDFFF < c.toNat ∧ c.toNat < 0x110000 := c.valid
  rw [isHighSurrogate, isLowSurrogate, decide_eq_false_iff_not, decide_eq_false_iff_not]
  omega

theorem unicodeEscape?_eq_some_iff {cs rest : List Char} {c : Char} :
    unicodeEscape? cs = some (c, rest) ↔ ∃ e, Escapes c ('u' :: e) ∧ cs = e ++ rest := by
  constructor
  · intro h
    rw [unicodeEscape?] at h
    split at h
    · cases h
    · next high rest' hunit =>
      obtain ⟨us, hus, rfl⟩ := hexUnit?_eq_some_iff.1 hunit
      split at h
      · next hsurrogate =>
        split at h
        · next rest' =>
          split at h
          · next low rest' hlow =>
            obtain ⟨ls, hls, rfl⟩ := hexUnit?_eq_some_iff.1 hlow
            split at h
            · next hlower =>
              rw [Option.some.injEq, Prod.mk.injEq] at h
              obtain ⟨rfl, rfl⟩ := h
              rw [isHighSurrogate, decide_eq_true_eq] at hsurrogate
              rw [isLowSurrogate, decide_eq_true_eq] at hlower
              have hc : (ofSurrogates high low).toNat =
                  0x10000 + (high - 0xD800) * 0x400 + (low - 0xDC00) := by
                rw [ofSurrogates, toNat_char (.inr (by omega))]
              refine ⟨us ++ '\\' :: 'u' :: ls, .pair hus hls hsurrogate hlower hc, ?_⟩
              rw [List.append_assoc, List.cons_append, List.cons_append]
            · cases h
          · cases h
        · cases h
      · next hhigh =>
        split at h
        · cases h
        · next hlow =>
          cases h
          rw [isHighSurrogate, decide_eq_true_eq] at hhigh
          rw [isLowSurrogate, decide_eq_true_eq] at hlow
          have hlt := hus.lt
          have hvalid : high.isValidChar := by
            unfold Nat.isValidChar
            omega
          exact ⟨us, .unit ((toNat_char hvalid).symm ▸ hus), rfl⟩
  · rintro ⟨e, he, rfl⟩
    cases he with
    | short h => exact absurd rfl (ne_of_mem_shortEscapes h)
    | unit h =>
      obtain ⟨hhigh, hlow⟩ := isSurrogate_toNat c
      simp [unicodeEscape?, hexUnit?_eq_some_iff.2 ⟨e, h, rfl⟩, hhigh, hlow, Char.ofNat_toNat]
    | @pair us ls high low hus hls hhigh hlow h =>
      have hsurrogate : isHighSurrogate high = true := decide_eq_true hhigh
      have hlower : isLowSurrogate low = true := decide_eq_true hlow
      have hc : ofSurrogates high low = c := by rw [ofSurrogates, ← h, Char.ofNat_toNat]
      change unicodeEscape? ((us ++ '\\' :: 'u' :: ls) ++ rest) = _
      rw [List.append_assoc, unicodeEscape?, hexUnit?_eq_some_iff.2 ⟨us, hus, rfl⟩]
      simp only [hsurrogate, if_true, List.cons_append, hexUnit?_eq_some_iff.2 ⟨ls, hls, rfl⟩,
        hlower, hc]

theorem escape?_eq_some_iff {cs rest : List Char} {c : Char} :
    escape? cs = some (c, rest) ↔ ∃ e, Escapes c e ∧ cs = e ++ rest := by
  constructor
  · intro h
    rw [escape?.eq_def] at h
    split at h
    · next cs =>
      obtain ⟨e, he, rfl⟩ := unicodeEscape?_eq_some_iff.1 h
      exact ⟨_, he, rfl⟩
    · next letter cs _ =>
      obtain ⟨_, hletter, hcs⟩ := Option.map_eq_some_iff.1 h
      cases hcs
      exact ⟨[letter], .short (lookup_shortEscapes.1 hletter), rfl⟩
    · cases h
  · rintro ⟨e, he, rfl⟩
    by_cases hu : ∃ e', e = 'u' :: e'
    · obtain ⟨e', rfl⟩ := hu
      exact unicodeEscape?_eq_some_iff.2 ⟨e', he, rfl⟩
    · cases he with
      | @short letter h =>
        rw [List.singleton_append, escape?, lookup_shortEscapes.2 h]
        · rfl
        · exact ne_of_mem_shortEscapes h
      | unit => exact absurd ⟨_, rfl⟩ hu
      | pair => exact absurd ⟨_, rfl⟩ hu

/-! ### Literals are read -/

theorem readFrom_eq_some_iff {cs done s rest : List Char} :
    readFrom done cs = some (s, rest) ↔
      ∃ t x, s = done.reverse ++ t ∧ Writes t x ∧ cs = x ++ '"' :: rest := by
  constructor
  · intro h
    fun_induction readFrom done cs with
    | case1 => cases h
    | case2 done rest' =>
      cases h
      exact ⟨[], [], (List.append_nil _).symm, .nil, rfl⟩
    | case3 done cs c rest' hescape ih =>
      obtain ⟨t, x, rfl, hx, rfl⟩ := ih h
      obtain ⟨e, he, rfl⟩ := escape?_eq_some_iff.1 hescape
      refine ⟨c :: t, '\\' :: e ++ x, ?_, .escape he hx, ?_⟩
      · rw [List.reverse_cons, List.append_assoc, List.singleton_append]
      · rw [List.cons_append, List.cons_append, List.append_assoc]
    | case4 => cases h
    | case5 => cases h
    | case6 done c rest' hquote hbackslash hcontrol ih =>
      obtain ⟨t, x, rfl, hx, rfl⟩ := ih h
      refine ⟨c :: t, c :: x, ?_, .plain ⟨not_lt.1 hcontrol, hquote, hbackslash⟩ hx, rfl⟩
      rw [List.reverse_cons, List.append_assoc, List.singleton_append]
  · rintro ⟨t, x, rfl, hx, rfl⟩
    induction hx generalizing done with
    | nil => rw [List.append_nil, List.nil_append, readFrom]
    | @plain c s cs hc _ ih =>
      rw [List.cons_append, readFrom_plain hc.2.1 hc.2.2 (not_lt.2 hc.1), ih, List.reverse_cons,
        List.append_assoc, List.singleton_append]
    | @escape c s e cs he _ ih =>
      have hescape : escape? (e ++ (cs ++ '"' :: rest)) = some (c, cs ++ '"' :: rest) :=
        escape?_eq_some_iff.2 ⟨e, he, rfl⟩
      rw [List.cons_append, List.cons_append, List.append_assoc, readFrom_backslash hescape, ih,
        List.reverse_cons, List.append_assoc, List.singleton_append]

/-- **A literal is read as the string that it spells.** -/
theorem readString_eq_some_iff {cs s rest : List Char} :
    readString cs = some (s, rest) ↔ ∃ x, Writes s x ∧ cs = x ++ '"' :: rest := by
  rw [readString, readFrom_eq_some_iff]
  constructor
  · rintro ⟨t, x, rfl, hx, rfl⟩
    exact ⟨x, hx, rfl⟩
  · rintro ⟨x, hx, rfl⟩
    exact ⟨s, x, rfl, hx, rfl⟩

/-! ### Literals are passed over -/

theorem isSome_lookup_shortEscapes {letter : Char} :
    (shortEscapes.lookup letter).isSome = true ↔ ∃ c, (letter, c) ∈ shortEscapes := by
  simp only [Option.isSome_iff_exists, lookup_shortEscapes]

/-- Passing over goes over a character that stands for itself. -/
theorem skipString_plain {c : Char} (hc : Plain c) (rest : List Char) :
    skipString (c :: rest) = skipString rest := by
  obtain ⟨hcontrol, hquote, hbackslash⟩ := hc
  rw [skipString.eq_def]
  split
  · next heq => cases heq
  · next heq => cases heq; contradiction
  · next heq => cases heq; contradiction
  · next heq => cases heq; contradiction
  · next heq =>
    cases heq
    exact if_neg (not_or.2 ⟨hbackslash, not_lt.2 hcontrol⟩)

/-- **A literal that nobody keeps is passed over as a whole.** -/
theorem skipString_eq_some_iff {cs rest : List Char} :
    skipString cs = some rest ↔ ∃ x, Passable x ∧ cs = x ++ '"' :: rest := by
  constructor
  · intro h
    fun_induction skipString cs with
    | case1 => cases h
    | case2 cs =>
      cases h
      exact ⟨[], .nil, rfl⟩
    | case3 a b c d cs hdigits ih =>
      obtain ⟨x, hx, rfl⟩ := ih h
      simp only [List.all_cons, List.all_nil, Bool.and_true, Bool.and_eq_true,
        Hex.isDigit_iff] at hdigits
      obtain ⟨⟨w, ha⟩, ⟨x, hb⟩, ⟨y, hc⟩, ⟨z, hd⟩⟩ := hdigits
      exact ⟨_, .unit (.of_digits ha hb hc hd) hx, rfl⟩
    | case4 => cases h
    | case5 letter cs _ hletter ih =>
      obtain ⟨x, hx, rfl⟩ := ih h
      obtain ⟨c, hletter⟩ := isSome_lookup_shortEscapes.1 hletter
      exact ⟨_, .short hletter hx, rfl⟩
    | case6 => cases h
    | case7 => cases h
    | case8 c cs hquote _ _ hplain ih =>
      obtain ⟨x, hx, rfl⟩ := ih h
      obtain ⟨hbackslash, hcontrol⟩ := not_or.1 hplain
      exact ⟨_, .plain ⟨not_lt.1 hcontrol, hquote, hbackslash⟩ hx, rfl⟩
  · rintro ⟨x, hx, rfl⟩
    induction hx with
    | nil => rfl
    | plain hc _ ih => rw [List.cons_append, skipString_plain hc, ih]
    | @short letter c cs hletter _ ih =>
      rw [List.cons_append, List.cons_append, skipString,
        if_pos (isSome_lookup_shortEscapes.2 ⟨c, hletter⟩), ih]
      rintro _ _ _ _ _ rfl
      exact absurd rfl (ne_of_mem_shortEscapes hletter)
    | unit hu _ ih =>
      obtain ⟨a, b, c, d, w, x, y, z, rfl, ha, hb, hc, hd, -⟩ := hu.exists_digits
      have hdigits : [a, b, c, d].all Hex.isDigit = true := by
        simp only [List.all_cons, List.all_nil, Bool.and_true, Bool.and_eq_true, Hex.isDigit_iff]
        exact ⟨⟨w, ha⟩, ⟨x, hb⟩, ⟨y, hc⟩, ⟨z, hd⟩⟩
      simp only [List.cons_append, List.nil_append, skipString, if_pos hdigits, ih]

end VideoComments.Json

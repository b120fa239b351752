import VideoComments.Proofs.Json.Grammar

/-!
# The grammar of numbers and names

`Scalar` is the grammar of the values without parts: strings, numbers and the three names. What is
passed over as one is one (`Scalar.of_skipScalar`). A scalar is passed over as a whole if what
follows it `Ends` it (`Scalar.skipScalar`): a number must not go on, and nothing that may stand
behind a value is a further part of a number (`Ends.starts`).
-/

namespace VideoComments.Json

/-! ## Numbers and names -/

/-- One or more digits. -/
def Digits (ds : List Char) : Prop := ds ≠ [] ∧ ∀ c ∈ ds, '0' ≤ c ∧ c ≤ '9'

/-- A whole number without leading zeros. -/
inductive Whole : List Char → Prop
  | zero : Whole ['0']
  | positive {ds : List Char} (h : Digits ds) (hhead : ds.head? ≠ some '0') : Whole ds

/-- A fraction, or nothing. -/
inductive Fraction : List Char → Prop
  | absent : Fraction []
  | present {ds : List Char} (h : Digits ds) : Fraction ('.' :: ds)

/-- An exponent, or nothing. -/
inductive Exponent : List Char → Prop
  | absent : Exponent []
  | present {e : Char} {sign ds : List Char} (he : e = 'e' ∨ e = 'E')
      (hsign : sign = [] ∨ sign = ['+'] ∨ sign = ['-']) (h : Digits ds) :
      Exponent (e :: sign ++ ds)

/-- A string, a number or a name that nobody keeps. -/
inductive Scalar : List Char → Prop
  | string {s : List Char} (h : Passable s) : Scalar ('"' :: s ++ ['"'])
  | number {sign whole fraction exponent : List Char} (hsign : sign = [] ∨ sign = ['-'])
      (hwhole : Whole whole) (hfraction : Fraction fraction) (hexponent : Exponent exponent) :
      Scalar (sign ++ whole ++ fraction ++ exponent)
  | name {s : List Char}
      (h : s = ['t', 'r', 'u', 'e'] ∨ s = ['f', 'a', 'l', 's', 'e'] ∨ s = ['n', 'u', 'l', 'l']) :
      Scalar s

/-- The first character, if there is one, satisfies `p`. -/
def Starts (p : Char → Prop) (cs : List Char) : Prop := ∀ c ∈ cs.head?, p c

/-- What may follow a value: white space, a comma, the end of an array or an object, or nothing. -/
def Ends (cs : List Char) : Prop :=
  Starts (fun c => isSpace c = true ∨ c = ',' ∨ c = ']' ∨ c = '}') cs

theorem Starts.mono {p q : Char → Prop} {cs : List Char} (h : Starts p cs) (hpq : ∀ c, p c → q c) :
    Starts q cs := fun c hc => hpq c (h c hc)

/-- What ends a value cannot be a further part of a number. -/
theorem Ends.starts {cs : List Char} (h : Ends cs) :
    Starts (fun c => isDigit c = false ∧ c ≠ '.' ∧ c ≠ 'e' ∧ c ≠ 'E') cs := by
  refine h.mono fun c hc => ?_
  rw [isSpace_iff] at hc
  rcases hc with (rfl | rfl | rfl | rfl) | rfl | rfl | rfl <;> decide

/-! ### Digits -/

theorem isDigit_iff {c : Char} : isDigit c = true ↔ '0' ≤ c ∧ c ≤ '9' := by
  rw [isDigit, decide_eq_true_eq]

theorem skipDigits_eq_some_iff {cs rest : List Char} :
    skipDigits cs = some rest ↔
      ∃ ds, Digits ds ∧ Starts (fun c => isDigit c = false) rest ∧ cs = ds ++ rest := by
  constructor
  · intro h
    rw [skipDigits.eq_def] at h
    split at h
    · next c cs =>
      split at h
      · next hc =>
        cases h
        refine ⟨c :: cs.takeWhile isDigit, ⟨List.cons_ne_nil _ _, ?_⟩, fun d hd => ?_, ?_⟩
        · rw [List.forall_mem_cons, ← isDigit_iff]
          exact ⟨hc, fun d hd => isDigit_iff.1 (List.mem_takeWhile_imp hd)⟩
        · have hstop := List.head?_dropWhile_not isDigit cs
          rw [hd] at hstop
          exact hstop
        · rw [List.cons_append, List.takeWhile_append_dropWhile]
      · cases h
    · cases h
  · rintro ⟨ds, ⟨hne, hdigits⟩, hstops, rfl⟩
    obtain ⟨c, ds, rfl⟩ := List.exists_cons_of_ne_nil hne
    rw [List.forall_mem_cons] at hdigits
    have hrest : rest.dropWhile isDigit = rest := by
      cases rest with
      | nil => rfl
      | cons d rest => exact List.dropWhile_cons_of_neg (by simp [hstops d rfl])
    rw [List.cons_append, skipDigits, if_pos (isDigit_iff.2 hdigits.1),
      List.dropWhile_append_of_pos fun d hd => isDigit_iff.2 (hdigits.2 d hd), hrest]

/-! ### The parts of a number -/

theorem Whole.of_skipWhole {cs rest : List Char} (h : skipWhole cs = some rest) :
    ∃ w, Whole w ∧ cs = w ++ rest := by
  rw [skipWhole.eq_def] at h
  split at h
  · cases h
    exact ⟨['0'], .zero, rfl⟩
  · next hzero =>
    obtain ⟨ds, hds, -, rfl⟩ := skipDigits_eq_some_iff.1 h
    refine ⟨ds, .positive hds fun hhead => ?_, rfl⟩
    obtain ⟨ds, rfl⟩ := List.head?_eq_some_iff.1 hhead
    exact hzero _ rfl

theorem Whole.skipWhole {w rest : List Char} (h : Whole w)
    (hrest : Starts (fun c => isDigit c = false) rest) : skipWhole (w ++ rest) = some rest := by
  cases h with
  | zero => rfl
  | positive hdigits hhead =>
    rw [Json.skipWhole.eq_def]
    split
    · next heq =>
      obtain ⟨c, ds, rfl⟩ := List.exists_cons_of_ne_nil hdigits.1
      cases heq
      exact absurd rfl hhead
    · exact skipDigits_eq_some_iff.2 ⟨w, hdigits, hrest, rfl⟩

theorem Fraction.of_skipFraction {cs rest : List Char} (h : skipFraction cs = some rest) :
    ∃ f, Fraction f ∧ cs = f ++ rest := by
  rw [skipFraction.eq_def] at h
  split at h
  · obtain ⟨ds, hds, -, rfl⟩ := skipDigits_eq_some_iff.1 h
    exact ⟨_, .present hds, rfl⟩
  · cases h
    exact ⟨[], .absent, rfl⟩

theorem Fraction.skipFraction {f rest : List Char} (h : Fraction f)
    (hrest : Starts (fun c => isDigit c = false ∧ c ≠ '.') rest) :
    skipFraction (f ++ rest) = some rest := by
  cases h with
  | absent =>
    rw [List.nil_append, Json.skipFraction.eq_def]
    split
    · exact absurd rfl (hrest '.' rfl).2
    · rfl
  | present hds =>
    exact skipDigits_eq_some_iff.2 ⟨_, hds, hrest.mono fun _ hc => hc.1, rfl⟩

theorem Exponent.of_skipExponent {cs rest : List Char} (h : skipExponent cs = some rest) :
    ∃ e, Exponent e ∧ cs = e ++ rest := by
  rw [skipExponent.eq_def] at h
  split at h
  · next e cs =>
    split at h
    · next he =>
      split at h
      · next s cs =>
        split at h
        · next hs =>
          obtain ⟨ds, hds, -, rfl⟩ := skipDigits_eq_some_iff.1 h
          refine ⟨e :: [s] ++ ds, .present he (.inr ?_) hds, rfl⟩
          rcases hs with rfl | rfl
          · exact .inl rfl
          · exact .inr rfl
        · obtain ⟨ds, hds, -, hcs⟩ := skipDigits_eq_some_iff.1 h
          exact ⟨e :: [] ++ ds, .present he (.inl rfl) hds, congrArg (e :: ·) hcs⟩
      · cases h
    · cases h
      exact ⟨[], .absent, rfl⟩
  · cases h
    exact ⟨[], .absent, rfl⟩

theorem Exponent.skipExponent {e rest : List Char} (h : Exponent e) (hrest : Ends rest) :
    skipExponent (e ++ rest) = some rest := by
  have hstops := hrest.starts
  cases h with
  | absent =>
    cases rest with
    | nil => rfl
    | cons c rest =>
      obtain ⟨-, -, he, hE⟩ := hstops c rfl
      exact if_neg (not_or.2 ⟨he, hE⟩)
  | @present e sign ds he hsign hds =>
    have hdigits : skipDigits (ds ++ rest) = some rest :=
      skipDigits_eq_some_iff.2 ⟨ds, hds, hstops.mono fun _ hc => hc.1, rfl⟩
    rcases hsign with rfl | rfl | rfl
    · obtain ⟨d, ds, rfl⟩ := List.exists_cons_of_ne_nil hds.1
      have hd : ¬ (d = '+' ∨ d = '-') := by
        have hdigit := hds.2 d List.mem_cons_self
        rintro (rfl | rfl) <;> revert hdigit <;> decide
      exact (if_pos he).trans ((if_neg hd).trans hdigits)
    · exact (if_pos he).trans hdigits
    · exact (if_pos he).trans hdigits

/-! ### Numbers and names are passed over -/

/-- A number starts with a digit or a minus sign. -/
theorem skipScalar_of_head {c : Char} (hc : c = '-' ∨ isDigit c = true) (cs : List Char) :
    skipScalar (c :: cs) = skipNumber (c :: cs) := by
  rw [skipScalar.eq_def]
  split
  case h_5 => rfl
  all_goals
    next heq =>
      cases heq
      exact absurd hc (by decide)

theorem Digits.exists_cons {ds : List Char} (h : Digits ds) :
    ∃ d more, ds = d :: more ∧ isDigit d = true := by
  obtain ⟨d, more, rfl⟩ := List.exists_cons_of_ne_nil h.1
  exact ⟨d, more, rfl, isDigit_iff.2 (h.2 d List.mem_cons_self)⟩

theorem Whole.exists_cons {w : List Char} (h : Whole w) :
    ∃ d more, w = d :: more ∧ isDigit d = true := by
  cases h with
  | zero => exact ⟨'0', [], rfl, rfl⟩
  | positive h => exact h.exists_cons

/-- **What is passed over is a string, a number or a name.** -/
theorem Scalar.of_skipScalar {cs rest : List Char} (h : skipScalar cs = some rest) :
    ∃ s, Scalar s ∧ cs = s ++ rest := by
  rw [skipScalar.eq_def] at h
  split at h
  · obtain ⟨s, hs, rfl⟩ := skipString_eq_some_iff.1 h
    exact ⟨'"' :: s ++ ['"'], .string hs, by simp⟩
  · cases h
    exact ⟨_, .name (.inl rfl), rfl⟩
  · cases h
    exact ⟨_, .name (.inr (.inl rfl)), rfl⟩
  · cases h
    exact ⟨_, .name (.inr (.inr rfl)), rfl⟩
  · obtain ⟨afterWhole, hwhole, h⟩ := Option.bind_eq_some_iff.1 h
    obtain ⟨afterFraction, hfraction, hexponent⟩ := Option.bind_eq_some_iff.1 h
    obtain ⟨w, hw, hunsigned⟩ := Whole.of_skipWhole hwhole
    obtain ⟨f, hf, rfl⟩ := Fraction.of_skipFraction hfraction
    obtain ⟨e, he, rfl⟩ := Exponent.of_skipExponent hexponent
    split at hunsigned
    · refine ⟨['-'] ++ w ++ f ++ e, .number (.inr rfl) hw hf he, ?_⟩
      rw [hunsigned]
      simp
    · refine ⟨[] ++ w ++ f ++ e, .number (.inl rfl) hw hf he, ?_⟩
      rw [hunsigned]
      simp

/-- **A string, a number or a name is passed over as a whole.** -/
theorem Scalar.skipScalar {s rest : List Char} (h : Scalar s) (hrest : Ends rest) :
    skipScalar (s ++ rest) = some rest := by
  cases h with
  | @string s h =>
    rw [List.append_assoc, List.cons_append]
    exact skipString_eq_some_iff.2 ⟨s, h, rfl⟩
  | name h => rcases h with rfl | rfl | rfl <;> rfl
  | @number sign whole fraction exponent hsign hwhole hfraction hexponent =>
    have hafterFraction : Starts (fun c => isDigit c = false ∧ c ≠ '.') (exponent ++ rest) := by
      cases hexponent with
      | absent => exact hrest.starts.mono fun _ hc => ⟨hc.1, hc.2.1⟩
      | present he =>
        rintro c hc
        cases hc
        rcases he with rfl | rfl <;> decide
    have hafterWhole :
        Starts (fun c => isDigit c = false) (fraction ++ (exponent ++ rest)) := by
      cases hfraction with
      | absent => exact hafterFraction.mono fun _ hc => hc.1
      | present =>
        rintro c hc
        cases hc
        rfl
    have hparts : ((Json.skipWhole (whole ++ (fraction ++ (exponent ++ rest)))).bind fun rest =>
        (Json.skipFraction rest).bind skipExponent) = some rest := by
      rw [hwhole.skipWhole hafterWhole, Option.bind_some, hfraction.skipFraction hafterFraction,
        Option.bind_some, hexponent.skipExponent hrest]
    obtain ⟨d, more, rfl, hd⟩ := hwhole.exists_cons
    rw [List.append_assoc, List.append_assoc, List.append_assoc]
    rcases hsign with rfl | rfl
    · rw [List.nil_append, List.cons_append, skipScalar_of_head (.inr hd), skipNumber]
      · exact hparts
      · rintro _ heq
        cases heq
        exact absurd hd (by decide)
    · exact (skipScalar_of_head (.inl rfl) _).trans hparts

/-- A scalar starts with a character that starts nothing else. -/
theorem Scalar.exists_cons {s : List Char} (h : Scalar s) :
    ∃ c more, s = c :: more ∧ isSpace c = false ∧ c ∉ ['[', '{', ']', '}'] := by
  cases h with
  | string => exact ⟨'"', _, rfl, by decide⟩
  | name h => rcases h with rfl | rfl | rfl <;> exact ⟨_, _, rfl, by decide⟩
  | number hsign hwhole =>
    obtain ⟨d, more, rfl, hd⟩ := hwhole.exists_cons
    rcases hsign with rfl | rfl
    · refine ⟨d, _, rfl, ?_, ?_⟩
      · rw [← Bool.not_eq_true, isSpace_iff]
        rintro (rfl | rfl | rfl | rfl) <;> exact absurd hd (by decide)
      · have hnone : ['[', '{', ']', '}'].any isDigit = false := by decide
        exact fun hmem => List.any_eq_false.1 hnone d hmem hd
    · exact ⟨'-', _, rfl, by decide⟩

end VideoComments.Json

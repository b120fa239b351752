import VideoComments.Json.Literal

/-!
# Passing over JSON values

A value that nobody keeps must still be well-formed, whatever its depth and however large its
numbers. `Json.skip` reads it with a stack of the arrays and objects that are open and one
expectation of what comes next; each step takes at least one character.
-/

namespace VideoComments.Json

/-! ## White space -/

/-- The four characters that may stand between tokens. -/
def isSpace (c : Char) : Bool := c = ' ' || c = '\t' || c = '\n' || c = '\r'

/-- The text from the next token on. -/
def trim (cs : List Char) : List Char := cs.dropWhile isSpace

theorem trim_length (cs : List Char) : (trim cs).length ≤ cs.length :=
  (List.dropWhile_sublist isSpace).length_le

/-! ## Numbers and names -/

/-- Is the character a digit? -/
def isDigit (c : Char) : Bool := '0' ≤ c ∧ c ≤ '9'

/-- What follows one or more digits. -/
def skipDigits : List Char → Option (List Char)
  | c :: cs => if isDigit c then some (cs.dropWhile isDigit) else none
  | [] => none

/-- What follows a whole number without leading zeros. -/
def skipWhole : List Char → Option (List Char)
  | '0' :: cs => some cs
  | cs => skipDigits cs

/-- What follows a fraction, if there is one. -/
def skipFraction : List Char → Option (List Char)
  | '.' :: cs => skipDigits cs
  | cs => some cs

/-- What follows an exponent, if there is one. -/
def skipExponent : List Char → Option (List Char)
  | e :: cs =>
    if e = 'e' ∨ e = 'E' then
      match cs with
      | s :: rest => if s = '+' ∨ s = '-' then skipDigits rest else skipDigits cs
      | [] => none
    else some (e :: cs)
  | [] => some []

/-- What follows a number of any size. -/
def skipNumber (cs : List Char) : Option (List Char) :=
  let unsigned :=
    match cs with
    | '-' :: rest => rest
    | _ => cs
  (skipWhole unsigned).bind fun rest => (skipFraction rest).bind skipExponent

/-- What follows a string, a number or one of the three names. -/
def skipScalar : List Char → Option (List Char)
  | '"' :: cs => skipString cs
  | 't' :: 'r' :: 'u' :: 'e' :: cs => some cs
  | 'f' :: 'a' :: 'l' :: 's' :: 'e' :: cs => some cs
  | 'n' :: 'u' :: 'l' :: 'l' :: cs => some cs
  | cs => skipNumber cs

theorem skipDigits_length {cs rest : List Char} (h : skipDigits cs = some rest) :
    rest.length < cs.length := by
  unfold skipDigits at h
  split at h
  · split at h
    · cases h
      exact Nat.lt_succ_of_le (List.dropWhile_sublist isDigit).length_le
    · cases h
  · cases h

theorem skipWhole_length {cs rest : List Char} (h : skipWhole cs = some rest) :
    rest.length < cs.length := by
  unfold skipWhole at h
  split at h
  · cases h; simp
  · exact skipDigits_length h

theorem skipFraction_length {cs rest : List Char} (h : skipFraction cs = some rest) :
    rest.length ≤ cs.length := by
  unfold skipFraction at h
  split at h
  · have := skipDigits_length h
    simp only [List.length_cons]
    omega
  · cases h; exact Nat.le_refl _

theorem skipExponent_length {cs rest : List Char} (h : skipExponent cs = some rest) :
    rest.length ≤ cs.length := by
  unfold skipExponent at h
  split at h
  · split at h
    · split at h
      · split at h
        · have := skipDigits_length h
          simp only [List.length_cons]
          omega
        · have := skipDigits_length h
          simp only [List.length_cons] at *
          omega
      · cases h
    · cases h; exact Nat.le_refl _
  · cases h; exact Nat.le_refl _

theorem skipNumber_length {cs rest : List Char} (h : skipNumber cs = some rest) :
    rest.length < cs.length := by
  unfold skipNumber at h
  obtain ⟨r₁, h₁, h⟩ := Option.bind_eq_some_iff.1 h
  obtain ⟨r₂, h₂, h₃⟩ := Option.bind_eq_some_iff.1 h
  have l₁ := skipWhole_length h₁
  have l₂ := skipFraction_length h₂
  have l₃ := skipExponent_length h₃
  split at l₁ <;> simp only [List.length_cons] at * <;> omega

theorem skipScalar_length {cs rest : List Char} (h : skipScalar cs = some rest) :
    rest.length < cs.length := by
  unfold skipScalar at h
  split at h
  · have := skipString_length h
    simp only [List.length_cons]
    omega
  · cases h; simp only [List.length_cons]; omega
  · cases h; simp only [List.length_cons]; omega
  · cases h; simp only [List.length_cons]; omega
  · exact skipNumber_length h

/-! ## Arrays and objects -/

/-- What is open around the place that has been reached. -/
inductive Frame
  | array
  | object
  deriving DecidableEq

/-- What may come next. -/
inductive Expect
  | value
  | valueOrEnd
  | key
  | keyOrEnd
  | colon
  | separator
  deriving DecidableEq

/-- One step: the next token, with the frames that are open after it and what may follow. A value
has been passed over when no frame is open and a separator is expected. -/
def step (stack : List Frame) (expect : Expect) (cs : List Char) :
    Option (List Frame × Expect × List Char) :=
  match expect, trim cs with
  | .value, '[' :: rest => some (.array :: stack, .valueOrEnd, rest)
  | .value, '{' :: rest => some (.object :: stack, .keyOrEnd, rest)
  | .value, rest => (skipScalar rest).map (stack, .separator, ·)
  | .valueOrEnd, ']' :: rest => some (stack.tail, .separator, rest)
  | .valueOrEnd, '[' :: rest => some (.array :: stack, .valueOrEnd, rest)
  | .valueOrEnd, '{' :: rest => some (.object :: stack, .keyOrEnd, rest)
  | .valueOrEnd, rest => (skipScalar rest).map (stack, .separator, ·)
  | .key, '"' :: rest => (skipString rest).map (stack, .colon, ·)
  | .keyOrEnd, '}' :: rest => some (stack.tail, .separator, rest)
  | .keyOrEnd, '"' :: rest => (skipString rest).map (stack, .colon, ·)
  | .colon, ':' :: rest => some (stack, .value, rest)
  | .separator, c :: rest =>
    match stack, c with
    | .array :: _, ',' => some (stack, .value, rest)
    | .array :: outer, ']' => some (outer, .separator, rest)
    | .object :: _, ',' => some (stack, .key, rest)
    | .object :: outer, '}' => some (outer, .separator, rest)
    | _, _ => none
  | _, _ => none

theorem step_length {stack stack' : List Frame} {expect expect' : Expect} {cs rest : List Char}
    (h : step stack expect cs = some (stack', expect', rest)) : rest.length < cs.length := by
  have bound := trim_length cs
  unfold step at h
  split at h
  case h_3 | h_7 =>
    obtain ⟨r, hr, h⟩ := Option.map_eq_some_iff.1 h
    have := skipScalar_length hr
    cases h
    omega
  case h_8 r₀ ht | h_10 r₀ ht =>
    obtain ⟨r, hr, h⟩ := Option.map_eq_some_iff.1 h
    have := skipString_length hr
    rw [ht, List.length_cons] at bound
    cases h
    omega
  case h_12 c r₀ ht =>
    rw [ht, List.length_cons] at bound
    split at h <;> cases h <;> omega
  case h_13 => cases h
  all_goals
    rename_i ht
    rw [ht, List.length_cons] at bound
    cases h
    omega

/-- Passes over what is expected, down to the end of the outermost open value. -/
def skip (stack : List Frame) (expect : Expect) (cs : List Char) : Option (List Char) :=
  if stack = [] ∧ expect = .separator then some cs
  else
    match _h : step stack expect cs with
    | some (stack, expect, rest) => skip stack expect rest
    | none => none
termination_by cs.length
decreasing_by exact step_length _h

/-- What follows a value, which white space may precede. -/
def skipValue (cs : List Char) : Option (List Char) := skip [] .value cs

end VideoComments.Json

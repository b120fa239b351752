import VideoComments.Text.Hex

/-!
# String literals in JSON

* `Json.quote` writes a string: quotes, backslashes and the control characters below the space are
  escaped, all else stands for itself.
* `Json.readString` reads a literal in any legal spelling. An escaped surrogate counts only as half
  of a pair.
* `Json.skipString` passes over a literal without keeping it; any four digits may follow `u` there.

The readers start after the opening quote and stop after the closing one.
-/

namespace VideoComments.Json

/-! ## Writing -/

/-- The letters that stand for control characters, the quote, the backslash and the slash. -/
def shortEscapes : List (Char × Char) :=
  [('"', '"'), ('\\', '\\'), ('/', '/'), ('b', '\x08'), ('f', '\x0c'), ('n', '\n'), ('r', '\r'),
   ('t', '\t')]

/-- The spelling of one character inside a literal. -/
def escape (c : Char) : List Char :=
  match c with
  | '"' => ['\\', '"']
  | '\\' => ['\\', '\\']
  | '\x08' => ['\\', 'b']
  | '\x0c' => ['\\', 'f']
  | '\n' => ['\\', 'n']
  | '\r' => ['\\', 'r']
  | '\t' => ['\\', 't']
  | c => if c.toNat < 0x20 then '\\' :: 'u' :: Hex.padded 4 c.toNat else [c]

/-- The literal of a string. -/
def quote (s : String) : List Char := '"' :: s.toList.flatMap escape ++ ['"']

/-! ## Reading -/

/-- Reads four hexadecimal digits. -/
def hexUnit? : List Char → Option (Nat × List Char)
  | a :: b :: c :: d :: cs =>
    match Hex.digit? a, Hex.digit? b, Hex.digit? c, Hex.digit? d with
    | some w, some x, some y, some z => some (Hex.ofDigits [w, x, y, z], cs)
    | _, _, _, _ => none
  | _ => none

/-- Is the code unit the first half of a surrogate pair? -/
def isHighSurrogate (n : Nat) : Bool := 0xD800 ≤ n ∧ n ≤ 0xDBFF

/-- Is the code unit the second half of a surrogate pair? -/
def isLowSurrogate (n : Nat) : Bool := 0xDC00 ≤ n ∧ n ≤ 0xDFFF

/-- The character of a surrogate pair. -/
def ofSurrogates (high low : Nat) : Char :=
  Char.ofNat (0x10000 + (high - 0xD800) * 0x400 + (low - 0xDC00))

/-- The character after a backslash and `u`: one code unit, or a surrogate pair of which the second
half is escaped as well. -/
def unicodeEscape? (cs : List Char) : Option (Char × List Char) :=
  match hexUnit? cs with
  | none => none
  | some (high, rest) =>
    if isHighSurrogate high then
      match rest with
      | '\\' :: 'u' :: rest =>
        match hexUnit? rest with
        | some (low, rest) =>
          if isLowSurrogate low then some (ofSurrogates high low, rest) else none
        | none => none
      | _ => none
    else if isLowSurrogate high then none
    else some (Char.ofNat high, rest)

/-- The character after a backslash. -/
def escape? : List Char → Option (Char × List Char)
  | 'u' :: cs => unicodeEscape? cs
  | c :: cs => (shortEscapes.lookup c).map (·, cs)
  | [] => none

theorem hexUnit?_length {cs : List Char} {n : Nat} {rest : List Char}
    (h : hexUnit? cs = some (n, rest)) : rest.length < cs.length := by
  unfold hexUnit? at h
  split at h
  · split at h
    · cases h
      simp only [List.length_cons]
      omega
    · cases h
  · cases h

theorem unicodeEscape?_length {cs : List Char} {c : Char} {rest : List Char}
    (h : unicodeEscape? cs = some (c, rest)) : rest.length < cs.length := by
  unfold unicodeEscape? at h
  split at h
  · cases h
  · next high rest₁ h₁ =>
    have l₁ := hexUnit?_length h₁
    split at h
    · split at h
      · next rest₂ =>
        split at h
        · next low rest₃ h₃ =>
          have l₃ := hexUnit?_length h₃
          split at h
          · obtain ⟨-, rfl⟩ : _ ∧ rest₃ = rest := by simpa using h
            simp only [List.length_cons] at l₁
            omega
          · cases h
        · cases h
      · cases h
    · split at h
      · cases h
      · obtain ⟨-, rfl⟩ : _ ∧ rest₁ = rest := by simpa using h
        exact l₁

theorem escape?_length {cs : List Char} {c : Char} {rest : List Char}
    (h : escape? cs = some (c, rest)) : rest.length < cs.length := by
  unfold escape? at h
  split at h
  · have := unicodeEscape?_length h
    simp only [List.length_cons]
    omega
  · next d ds _ =>
    cases hl : shortEscapes.lookup d <;> rw [hl] at h <;> cases h
    simp
  · cases h

/-- Reads a literal whose first characters, in reverse, are `done`. -/
def readFrom (done : List Char) (cs : List Char) : Option (List Char × List Char) :=
  match cs with
  | [] => none
  | '"' :: rest => some (done.reverse, rest)
  | '\\' :: rest =>
    match _h : escape? rest with
    | some (c, rest) => readFrom (c :: done) rest
    | none => none
  | c :: rest => if c.toNat < 0x20 then none else readFrom (c :: done) rest
termination_by cs.length
decreasing_by
  · have := escape?_length _h
    simp only [List.length_cons]
    omega
  · simp

/-- Reads the rest of a literal: its characters, and what follows it. -/
def readString (cs : List Char) : Option (List Char × List Char) := readFrom [] cs

theorem readFrom_length {done cs s rest : List Char} (h : readFrom done cs = some (s, rest)) :
    rest.length < cs.length := by
  fun_induction readFrom done cs with
  | case1 => cases h
  | case2 => cases h; simp
  | case3 done rest' c rest'' he ih =>
    have := escape?_length he
    have := ih h
    simp only [List.length_cons]
    omega
  | case4 => cases h
  | case5 => cases h
  | case6 done c rest' _ _ _ ih =>
    have := ih h
    simp only [List.length_cons]
    omega

/-! ## Passing over -/

/-- What follows the rest of a literal that is not kept. -/
def skipString : List Char → Option (List Char)
  | [] => none
  | '"' :: cs => some cs
  | '\\' :: 'u' :: a :: b :: c :: d :: cs =>
    if [a, b, c, d].all Hex.isDigit then skipString cs else none
  | '\\' :: c :: cs => if (shortEscapes.lookup c).isSome then skipString cs else none
  | c :: cs => if c = '\\' ∨ c.toNat < 0x20 then none else skipString cs

theorem skipString_length {cs rest : List Char} (h : skipString cs = some rest) :
    rest.length < cs.length := by
  fun_induction skipString cs with
  | case1 => cases h
  | case2 => cases h; simp
  | case3 a b c d cs _ ih => have := ih h; simp only [List.length_cons]; omega
  | case4 => cases h
  | case5 c cs _ _ ih => have := ih h; simp only [List.length_cons]; omega
  | case6 => cases h
  | case7 => cases h
  | case8 c cs _ _ _ _ ih => have := ih h; simp only [List.length_cons]; omega

end VideoComments.Json

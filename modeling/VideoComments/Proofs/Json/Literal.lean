import VideoComments.Json.Literal
import VideoComments.Proofs.Text.Hex

/-!
# String literals read back

The reader undoes one escape at a time (`readFrom_escape`), and so the whole literal of a string
(`readString_quote`), whatever follows it.
-/

namespace VideoComments.Json

/-- Four digits spell a code unit. -/
theorem hexUnit?_padded {n : Nat} (h : n < 16 ^ 4) (rest : List Char) :
    hexUnit? (Hex.padded 4 n ++ rest) = some (n, rest) := by
  have hlt : ∀ m, m % 16 < 16 := fun m => Nat.mod_lt m (by decide)
  have hn := Hex.ofDigits_nibbles 4 n
  rw [Nat.mod_eq_of_lt h] at hn
  rw [Hex.padded_eq_map]
  simp only [Hex.nibbles, List.nil_append, List.cons_append, List.map_cons, List.map_nil] at hn ⊢
  simp only [hexUnit?, Hex.digit?_digitChar (hlt _), hn]

/-- A control character is spelled by its number. -/
theorem escape?_control {c : Char} (h : c.toNat < 0x20) (rest : List Char) :
    escape? ('u' :: (Hex.padded 4 c.toNat ++ rest)) = some (c, rest) := by
  have hhigh : isHighSurrogate c.toNat = false := by
    rw [isHighSurrogate, decide_eq_false_iff_not]
    omega
  have hlow : isLowSurrogate c.toNat = false := by
    rw [isLowSurrogate, decide_eq_false_iff_not]
    omega
  simp [escape?, unicodeEscape?, hexUnit?_padded (show c.toNat < 16 ^ 4 by omega), hhigh, hlow,
    Char.ofNat_toNat]

/-- Reading goes over a backslash and what it escapes. -/
theorem readFrom_backslash {c : Char} {done cs rest : List Char} (h : escape? cs = some (c, rest)) :
    readFrom done ('\\' :: cs) = readFrom (c :: done) rest := by
  rw [readFrom]
  split
  · next c' rest' h' =>
    rw [h] at h'
    cases h'
    rfl
  · next h' => rw [h] at h'; cases h'

/-- Reading goes over a character that stands for itself. -/
theorem readFrom_plain {c : Char} (hquote : c ≠ '"') (hbackslash : c ≠ '\\') (h : ¬ c.toNat < 0x20)
    (done rest : List Char) : readFrom done (c :: rest) = readFrom (c :: done) rest := by
  rw [readFrom.eq_def]
  split
  · contradiction
  · next heq => cases heq; contradiction
  · next heq => cases heq; contradiction
  · next heq => cases heq; rw [if_neg h]

/-- **Reading undoes an escape.** -/
theorem readFrom_escape (c : Char) (done rest : List Char) :
    readFrom done (escape c ++ rest) = readFrom (c :: done) rest := by
  unfold escape
  split
  case h_8 hquote hbackslash _ _ _ _ _ =>
    split
    · next h => exact readFrom_backslash (escape?_control h rest)
    · next h => exact readFrom_plain hquote hbackslash h done rest
  all_goals exact readFrom_backslash rfl

theorem readFrom_flatMap_escape (s done rest : List Char) :
    readFrom done (s.flatMap escape ++ '"' :: rest) = some (done.reverse ++ s, rest) := by
  induction s generalizing done with
  | nil => simp [readFrom]
  | cons c s ih =>
    rw [List.flatMap_cons, List.append_assoc, readFrom_escape, ih]
    simp

/-- **The literal of a string is read back**, after its opening quote. -/
theorem readString_quote (s : String) (rest : List Char) :
    readString (s.toList.flatMap escape ++ '"' :: rest) = some (s.toList, rest) := by
  rw [readString, readFrom_flatMap_escape]
  rfl

end VideoComments.Json

import Mathlib.Data.List.Forall2
import VideoComments.Proofs.Text.Digits
import VideoComments.Text.Decimal

/-!
# Decimal numbers read back

What is written in base ten is read back as the same number, by every reader that accepts it:
`natural?_digits`, `int64?_signedDigits`, `canonical?_signedDigits`. A written number consists of
digits behind at most one minus sign, so none of the characters that delimit the parts of a key
occurs in it (`notMem_signedDigits`).

`Numeral` says which characters spell a natural number, leading zeros included, without regard to
how they are read. Readers agree with it (`natural?_eq_some_iff`, `bounded_eq_ok_iff`), and what is
written is the only numeral of its number that does not begin with a zero (`Numeral.eq_digits`).
-/

namespace VideoComments.Decimal

/-! ## Digits -/

theorem digit?_digitChar {d : Nat} (h : d < 10) : digit? (digitChar d) = some d := by
  have all : ∀ d < 10, digit? (digitChar d) = some d := by decide
  exact all d h

theorem isDigit_digitChar {d : Nat} (h : d < 10) : isDigit (digitChar d) = true := by
  rw [isDigit, digit?_digitChar h]
  rfl

theorem digits_ne_nil (n : Nat) : digits n ≠ [] := by
  rw [digits]
  split <;> simp

theorem length_digits_le {n k : Nat} (hk : 0 < k) (h : n < 10 ^ k) : (digits n).length ≤ k :=
  Text.length_written_le (fun n => by rw [digits]) hk h

theorem isDigit_of_mem_digits {n : Nat} {c : Char} (hc : c ∈ digits n) : isDigit c = true := by
  induction n using digits.induct with
  | case1 n h =>
    rw [digits, if_pos h, List.mem_singleton] at hc
    rw [hc]
    exact isDigit_digitChar h
  | case2 n h ih =>
    rw [digits, if_neg h, List.mem_append, List.mem_singleton] at hc
    rcases hc with hc | rfl
    · exact ih hc
    · exact isDigit_digitChar (Nat.mod_lt n (by omega))

/-! ## Natural numbers -/

theorem extend?_append (value : Nat) (cs ds : List Char) :
    extend? value (cs ++ ds) = (extend? value cs).bind fun v => extend? v ds := by
  induction cs generalizing value with
  | nil => rfl
  | cons c cs ih =>
    simp only [List.cons_append, extend?]
    cases digit? c with
    | none => rfl
    | some d => exact ih _

theorem extend?_digits (n : Nat) : extend? 0 (digits n) = some n := by
  induction n using digits.induct with
  | case1 n h => simp [digits, h, extend?, digit?_digitChar h]
  | case2 n h ih =>
    have hd : n % 10 < 10 := Nat.mod_lt n (by omega)
    rw [digits, if_neg h, extend?_append, ih]
    simp only [Option.bind_some, extend?, digit?_digitChar hd]
    congr 1
    omega

/-- **Written naturals are read back.** -/
theorem natural?_digits (n : Nat) : natural? (digits n) = some n := by
  cases h : digits n with
  | nil => exact absurd h (digits_ne_nil n)
  | cons c cs => rw [natural?, ← h, extend?_digits]; simp

/-! ## Integers -/

/-- A number without a sign is not taken for one with a sign. -/
theorem integer?_of_isDigit {c : Char} {cs : List Char} (hc : isDigit c = true) :
    integer? (c :: cs) = (natural? (c :: cs)).map fun n => (n : Int) := by
  have hminus : c ≠ '-' := by rintro rfl; revert hc; decide
  have hplus : c ≠ '+' := by rintro rfl; revert hc; decide
  simp [integer?, hminus, hplus]

theorem integer?_digits (n : Nat) : integer? (digits n) = some (n : Int) := by
  cases h : digits n with
  | nil => exact absurd h (digits_ne_nil n)
  | cons c cs =>
    have hc : c ∈ digits n := by rw [h]; exact List.mem_cons_self
    rw [integer?_of_isDigit (isDigit_of_mem_digits hc), ← h, natural?_digits]
    rfl

theorem integer?_signedDigits (i : Int) : integer? (signedDigits i) = some i := by
  cases i with
  | ofNat n => exact integer?_digits n
  | negSucc n => simp only [signedDigits, integer?, natural?_digits]; rfl

/-- **Written integers of 64 bits are read back.** -/
theorem int64?_signedDigits {i : Int} (h : fitsInt64 i = true) :
    int64? (signedDigits i) = some i := by
  rw [int64?, integer?_signedDigits, Option.filter_some, if_pos h]

theorem canonical?_signedDigits {i : Int} (h : fitsInt64 i = true) :
    canonical? (signedDigits i) = some i := by
  simp [canonical?, int64?_signedDigits h]

/-- What the strict reader accepts, the other reader reads as the same number. -/
theorem int64?_of_canonical? {cs : List Char} {i : Int} (h : canonical? cs = some i) :
    int64? cs = some i := by
  rw [canonical?, Option.filter_eq_some_iff] at h
  exact h.1

/-- The strict reader accepts what is written, and nothing else. -/
theorem canonical?_eq_some_iff {cs : List Char} {i : Int} :
    canonical? cs = some i ↔ fitsInt64 i = true ∧ cs = signedDigits i := by
  refine ⟨fun h => ?_, ?_⟩
  · rw [canonical?, int64?, Option.filter_eq_some_iff, Option.filter_eq_some_iff] at h
    exact ⟨h.1.2, (of_decide_eq_true h.2).symm⟩
  · rintro ⟨hfits, rfl⟩
    exact canonical?_signedDigits hfits

/-- The integers of 64 bits end where no successor fits. -/
theorem fitsInt64_succ_iff {i : Int} (h : fitsInt64 i = true) :
    fitsInt64 (i + 1) = true ↔ i < Int64.maxValue.toInt := by
  simp only [fitsInt64, decide_eq_true_eq] at h ⊢
  omega

theorem signedDigits_injective {i j : Int} (h : signedDigits i = signedDigits j) : i = j := by
  have hi := integer?_signedDigits i
  rw [h, integer?_signedDigits] at hi
  exact (Option.some.inj hi).symm

/-- A character that is neither a digit nor the minus sign does not occur in a number. -/
theorem notMem_signedDigits {c : Char} (hdigit : isDigit c = false) (hminus : c ≠ '-') (i : Int) :
    c ∉ signedDigits i := by
  intro hc
  have hn : ∀ n, c ∉ digits n := fun n hc => by simp [isDigit_of_mem_digits hc] at hdigit
  cases i with
  | ofNat n => exact hn n hc
  | negSucc n =>
    rcases List.mem_cons.1 hc with rfl | hc
    · exact hminus rfl
    · exact hn _ hc

/-! ## Numerals -/

/-- The ten digits, in the order of their values. -/
def tenDigits : List Char := ['0', '1', '2', '3', '4', '5', '6', '7', '8', '9']

/-- The character is the digit of this value. -/
def Denotes (c : Char) (d : Nat) : Prop := tenDigits[d]? = some c

instance (c : Char) (d : Nat) : Decidable (Denotes c d) := inferInstanceAs (Decidable (_ = _))

/-- The characters are digits, at least one, and spell the number in positional notation. -/
def Numeral (cs : List Char) (n : Nat) : Prop :=
  cs ≠ [] ∧ ∃ ds, List.Forall₂ Denotes cs ds ∧ n = Nat.ofDigits 10 ds.reverse

/-- **What is read as a digit is one.** -/
theorem digit?_eq_some_iff {c : Char} {d : Nat} : digit? c = some d ↔ Denotes c d := by
  constructor
  · intro h
    have ascii : ∀ n < 128, ∀ d ∈ digit? (Char.ofNat n), Denotes (Char.ofNat n) d := by decide
    have hc : c.toNat < 128 := by
      rw [digit?] at h
      split at h
      · next hc => exact lt_of_le_of_lt (UInt32.le_iff_toNat_le.1 hc.2) (by decide)
      · cases h
    have hdigit := ascii c.toNat hc
    rw [Char.ofNat_toNat] at hdigit
    exact hdigit d h
  · intro h
    have hlt : d < 10 := (List.getElem?_eq_some_iff.1 h).1
    have all : ∀ d < 10, tenDigits[d]?.bind digit? = some d := by decide
    have hd := all d hlt
    rwa [h, Option.bind_some] at hd

theorem isDigit_of_forall₂ {cs : List Char} {ds : List Nat} (h : List.Forall₂ Denotes cs ds) :
    ∀ c ∈ cs, isDigit c = true := by
  have hdigit : ∀ c d, Denotes c d → isDigit c = true ∧ Denotes c d := fun c d hc => by
    refine ⟨?_, hc⟩
    rw [isDigit, digit?_eq_some_iff.2 hc]
    rfl
  exact ((List.forall₂_and_left _ _).1 (h.imp hdigit)).1

theorem Numeral.isDigit {cs : List Char} {n : Nat} (h : Numeral cs n) :
    ∀ c ∈ cs, Decimal.isDigit c = true := by
  obtain ⟨-, ds, hds, -⟩ := h
  exact isDigit_of_forall₂ hds

theorem extend?_eq_some_iff {value n : Nat} {cs : List Char} :
    extend? value cs = some n ↔
      ∃ ds, List.Forall₂ Denotes cs ds ∧ n = ds.foldl (fun v d => 10 * v + d) value := by
  induction cs generalizing value with
  | nil => simp [extend?, eq_comm]
  | cons c cs ih =>
    rw [extend?]
    cases hc : digit? c with
    | none =>
      refine iff_of_false (by simp) ?_
      rintro ⟨ds, hds, -⟩
      cases hds with
      | cons hd _ =>
        rw [digit?_eq_some_iff.2 hd] at hc
        cases hc
    | some d =>
      simp only [ih]
      constructor
      · rintro ⟨ds, hds, hn⟩
        exact ⟨d :: ds, .cons (digit?_eq_some_iff.1 hc) hds, hn⟩
      · rintro ⟨ds, hds, hn⟩
        cases hds with
        | cons hd hds =>
          obtain rfl := Option.some.inj (hc.symm.trans (digit?_eq_some_iff.2 hd))
          exact ⟨_, hds, hn⟩

/-- **Exactly numerals are read as natural numbers.** -/
theorem natural?_eq_some_iff {cs : List Char} {n : Nat} : natural? cs = some n ↔ Numeral cs n := by
  cases cs with
  | nil => exact iff_of_false (by simp [natural?]) fun h => h.1 rfl
  | cons c cs =>
    simp only [natural?, extend?_eq_some_iff, Text.foldl_eq_ofDigits, Numeral, ne_eq,
      reduceCtorEq, not_false_eq_true, true_and]

theorem numeral_digits (n : Nat) : Numeral (digits n) n :=
  natural?_eq_some_iff.1 (natural?_digits n)

theorem Numeral.unique {cs : List Char} {n m : Nat} (h : Numeral cs n) (h' : Numeral cs m) :
    n = m :=
  Option.some.inj ((natural?_eq_some_iff.2 h).symm.trans (natural?_eq_some_iff.2 h'))

theorem Numeral.isDigit_head {c : Char} {cs : List Char} {n : Nat} (h : Numeral (c :: cs) n) :
    Decimal.isDigit c = true :=
  h.isDigit c List.mem_cons_self

/-! ### Leading zeros -/

theorem Denotes.eq_digitChar {c : Char} {d : Nat} (h : Denotes c d) : d < 10 ∧ c = digitChar d := by
  have hd : d < 10 := (List.getElem?_eq_some_iff.1 h).1
  have all : ∀ d < 10, tenDigits[d]? = some (digitChar d) := by decide
  exact ⟨hd, Option.some.inj (h.symm.trans (all d hd))⟩

theorem pos_of_digitChar_ne {d : Nat} (hd : d < 10) (h : digitChar d ≠ '0') : 0 < d := by
  refine Nat.pos_of_ne_zero ?_
  rintro rfl
  exact h rfl

theorem digits_of_pos {n d : Nat} (hn : 0 < n) (hd : d < 10) :
    digits (10 * n + d) = digits n ++ [digitChar d] := by
  rw [digits, if_neg (by omega), Nat.mul_add_mod, Nat.mod_eq_of_lt hd,
    Nat.mul_add_div (by decide), Nat.div_eq_of_lt hd, Nat.add_zero]

theorem eq_digits_of_extend? {cs : List Char} {n : Nat} (h : extend? 0 cs = some n)
    (hne : cs ≠ []) (hzero : cs.head? ≠ some '0') : 0 < n ∧ cs = digits n := by
  induction cs using List.reverseRecOn generalizing n with
  | nil => exact absurd rfl hne
  | append_singleton cs c ih =>
    rw [extend?_append, Option.bind_eq_some_iff] at h
    obtain ⟨m, hm, hc⟩ := h
    obtain ⟨ds, hds, rfl⟩ := extend?_eq_some_iff.1 hc
    obtain ⟨d, hd, rfl⟩ : ∃ d, Denotes c d ∧ ds = [d] := by
      cases hds with
      | cons hd hds => cases hds; exact ⟨_, hd, rfl⟩
    obtain ⟨hlt, rfl⟩ := hd.eq_digitChar
    rw [List.foldl_cons, List.foldl_nil]
    cases cs with
    | nil =>
      cases hm
      have hpos : 0 < d := pos_of_digitChar_ne hlt fun h => hzero (by rw [← h]; rfl)
      refine ⟨by omega, ?_⟩
      rw [Nat.mul_zero, Nat.zero_add, digits, if_pos hlt, List.nil_append]
    | cons b cs =>
      obtain ⟨hpos, hcs⟩ := ih hm (List.cons_ne_nil _ _) hzero
      exact ⟨by omega, by rw [digits_of_pos hpos hlt, ← hcs]⟩

/-- **A numeral that does not begin with a zero is what is written** for its number. -/
theorem Numeral.eq_digits {cs : List Char} {n : Nat} (h : Numeral cs n)
    (hzero : cs.head? ≠ some '0') : 0 < n ∧ cs = digits n := by
  refine eq_digits_of_extend? ?_ h.1 hzero
  obtain ⟨-, ds, hds, hn⟩ := h
  exact extend?_eq_some_iff.2 ⟨ds, hds, hn.trans (Text.foldl_eq_ofDigits 10 ds).symm⟩

/-- A numeral without leading zeros is what is written. -/
theorem Numeral.eq_digits_of_canonical {cs : List Char} {n : Nat} (h : Numeral cs n)
    (hzero : ¬ (1 < cs.length ∧ cs.head? = some '0')) : cs = digits n := by
  by_cases hhead : cs.head? = some '0'
  · obtain ⟨cs, rfl⟩ := List.head?_eq_some_iff.1 hhead
    obtain rfl : cs = [] := by
      refine List.eq_nil_of_length_eq_zero ?_
      have hlength : ¬ 1 < ('0' :: cs).length := fun hlt => hzero ⟨hlt, hhead⟩
      rw [List.length_cons] at hlength
      omega
    have hdigits : digits 0 = ['0'] := by rw [digits]; rfl
    have hn : n = 0 := h.unique (by rw [← hdigits]; exact numeral_digits 0)
    rw [hn, hdigits]
  · exact (h.eq_digits hhead).2

/-- No number but zero is written with a zero in front. -/
theorem head?_digits_ne_zero {n : Nat} (h : 0 < n) : (digits n).head? ≠ some '0' := by
  induction n using digits.induct with
  | case1 n hlt =>
    have all : ∀ n < 10, 0 < n → [digitChar n].head? ≠ some '0' := by decide
    rw [digits, if_pos hlt]
    exact all n hlt h
  | case2 n hge ih =>
    rw [digits, if_neg hge, List.head?_append_of_ne_nil _ (digits_ne_nil _)]
    exact ih (by omega)

/-- No number is written with a needless zero in front. -/
theorem not_leadingZero_digits (n : Nat) :
    ¬ (1 < (digits n).length ∧ (digits n).head? = some '0') := by
  rintro ⟨hlength, hhead⟩
  rcases Nat.eq_zero_or_pos n with rfl | hn
  · exact absurd hlength (Nat.not_lt.2 (length_digits_le Nat.one_pos (by decide)))
  · exact head?_digits_ne_zero hn hhead

/-! ### Bounded naturals -/

theorem le_of_extend? {value n : Nat} {cs : List Char} (h : extend? value cs = some n) :
    value ≤ n := by
  induction cs generalizing value with
  | nil => cases h; exact Nat.le_refl _
  | cons c cs ih =>
    rw [extend?] at h
    cases hc : digit? c with
    | none => rw [hc] at h; cases h
    | some d =>
      rw [hc] at h
      have hle := ih h
      omega

theorem extendBounded_eq_ok_iff {limit value n : Nat} {cs : List Char} (hvalue : value ≤ limit) :
    extendBounded limit value cs = .ok n ↔ extend? value cs = some n ∧ n ≤ limit := by
  induction cs generalizing value with
  | nil =>
    rw [extendBounded, extend?, Except.ok.injEq, Option.some.injEq]
    exact ⟨fun h => ⟨h, h ▸ hvalue⟩, And.left⟩
  | cons c cs ih =>
    rw [extendBounded, extend?]
    cases digit? c with
    | none => simp
    | some d =>
      simp only
      split
      · next hle => exact ih hle
      · next hgt =>
        refine iff_of_false (by simp) ?_
        rintro ⟨h, hn⟩
        exact hgt ((le_of_extend? h).trans hn)

theorem extendBounded_zero_eq_ok_iff {limit n : Nat} {c : Char} {cs : List Char} :
    extendBounded limit 0 (c :: cs) = .ok n ↔ Numeral (c :: cs) n ∧ n ≤ limit := by
  rw [extendBounded_eq_ok_iff (Nat.zero_le _), ← natural?_eq_some_iff, natural?]
  simp

theorem not_numeral_plus {cs : List Char} {n : Nat} : ¬ Numeral ('+' :: cs) n := by
  intro h
  have hplus := h.isDigit_head
  revert hplus
  decide

theorem bounded_plus_eq_ok_iff {limit n : Nat} {cs : List Char} :
    bounded limit ('+' :: cs) = .ok n ↔ Numeral cs n ∧ n ≤ limit := by
  cases cs with
  | nil => exact iff_of_false (by simp [bounded]) fun h => h.1.1 rfl
  | cons c cs =>
    rw [bounded, extendBounded_zero_eq_ok_iff]
    exact List.cons_ne_nil c cs

theorem bounded_unsigned {limit : Nat} {c : Char} {cs : List Char} (h : c ≠ '+') :
    bounded limit (c :: cs) = extendBounded limit 0 (c :: cs) := by
  have hne : ∀ ds, c :: cs ≠ '+' :: ds := fun ds hds => h (List.cons.inj hds).1
  rw [bounded]
  · exact List.cons_ne_nil c cs
  · exact hne []
  · exact hne

/-- **Exactly numerals of numbers below the bound are read**, with a plus sign in front or
without. -/
theorem bounded_eq_ok_iff {limit n : Nat} {cs : List Char} :
    bounded limit cs = .ok n ↔
      ∃ ds, (cs = ds ∨ cs = '+' :: ds) ∧ Numeral ds n ∧ n ≤ limit := by
  constructor
  · intro h
    cases cs with
    | nil => simp [bounded] at h
    | cons c cs =>
      by_cases hc : c = '+'
      · subst hc
        exact ⟨cs, .inr rfl, bounded_plus_eq_ok_iff.1 h⟩
      · rw [bounded_unsigned hc, extendBounded_zero_eq_ok_iff] at h
        exact ⟨c :: cs, .inl rfl, h⟩
  · rintro ⟨ds, rfl | rfl, hds⟩
    · cases cs with
      | nil => exact absurd rfl hds.1.1
      | cons c cs =>
        have hc : c ≠ '+' := by
          rintro rfl
          exact not_numeral_plus hds.1
        rw [bounded_unsigned hc, extendBounded_zero_eq_ok_iff]
        exact hds
    · exact bounded_plus_eq_ok_iff.2 hds

end VideoComments.Decimal

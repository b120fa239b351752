import Mathlib.Data.List.Forall2
import VideoComments.Proofs.Text.Digits
import VideoComments.Text.Decimal
import VideoComments.Text.Hex

/-!
# Hexadecimal numbers read back

A padded number is the list of its lowest digits (`padded_eq_map`), which spell it again
(`ofDigits_nibbles`). What is read as a digit is one of the sixteen in either case
(`digit?_eq_some_iff`), and digits spell a number in positional notation (`ofDigits_eq`).
-/

namespace VideoComments.Hex

theorem digit?_digitChar {d : Nat} (h : d < 16) : digit? (digitChar d) = some d := by
  have all : ∀ d < 16, digit? (digitChar d) = some d := by decide
  exact all d h

/-- The lowest `width` digits of a number, as numbers. -/
def nibbles : (width n : Nat) → List Nat
  | 0, _ => []
  | width + 1, n => nibbles width (n / 16) ++ [n % 16]

@[simp] theorem length_nibbles (width n : Nat) : (nibbles width n).length = width := by
  induction width generalizing n with
  | zero => rfl
  | succ width ih => simp [nibbles, ih]

theorem nibbles_lt {width n d : Nat} (h : d ∈ nibbles width n) : d < 16 := by
  induction width generalizing n with
  | zero => simp [nibbles] at h
  | succ width ih =>
    rw [nibbles, List.mem_append, List.mem_singleton] at h
    rcases h with h | rfl
    · exact ih h
    · exact Nat.mod_lt n (by decide)

theorem padded_succ (width n : Nat) :
    padded (width + 1) n = padded width (n / 16) ++ [digitChar (n % 16)] := by
  have hfour : n / 16 = n >>> 4 := (Nat.shiftRight_eq_div_pow n 4).symm
  have step : ∀ i ∈ List.range width, digitChar (n >>> (4 * (width + 1 - 1 - i)) % 16) =
      digitChar ((n / 16) >>> (4 * (width - 1 - i)) % 16) := fun i hi => by
    have hi := List.mem_range.1 hi
    have hshift : 4 + 4 * (width - 1 - i) = 4 * (width + 1 - 1 - i) := by omega
    rw [hfour, ← Nat.shiftRight_add, hshift]
  rw [padded, List.range_succ, List.map_append, List.map_congr_left step]
  simp [padded]

theorem padded_eq_map (width n : Nat) : padded width n = (nibbles width n).map digitChar := by
  induction width generalizing n with
  | zero => rfl
  | succ width ih => rw [padded_succ, ih, nibbles, List.map_append]; rfl

/-- **The digits of a number spell it**, as far as there is room. -/
theorem ofDigits_nibbles (width n : Nat) : ofDigits (nibbles width n) = n % 16 ^ width := by
  induction width generalizing n with
  | zero => rw [Nat.pow_zero, Nat.mod_one]; rfl
  | succ width ih =>
    rw [nibbles, ofDigits, List.foldl_append, ← ofDigits, ih, List.foldl_cons, List.foldl_nil,
      Nat.pow_succ', Nat.mod_mul]
    omega

/-! ## Digits of either case -/

/-- The digits in lower case, in the order of their values. -/
def lowerDigits : List Char :=
  ['0', '1', '2', '3', '4', '5', '6', '7', '8', '9', 'a', 'b', 'c', 'd', 'e', 'f']

/-- The digits in upper case, in the order of their values. -/
def upperDigits : List Char :=
  ['0', '1', '2', '3', '4', '5', '6', '7', '8', '9', 'A', 'B', 'C', 'D', 'E', 'F']

/-- The character is the digit of this value, in either case. -/
def Denotes (c : Char) (d : Nat) : Prop := lowerDigits[d]? = some c ∨ upperDigits[d]? = some c

instance (c : Char) (d : Nat) : Decidable (Denotes c d) := inferInstanceAs (Decidable (_ ∨ _))

theorem Denotes.lt {c : Char} {d : Nat} (h : Denotes c d) : d < 16 := by
  rcases h with h | h <;> exact (List.getElem?_eq_some_iff.1 h).1

/-- Digits are ASCII characters. -/
theorem toNat_lt_of_digit? {c : Char} {d : Nat} (h : digit? c = some d) : c.toNat < 128 := by
  have below : ∀ {hi : Char}, hi.toNat < 128 → c ≤ hi → c.toNat < 128 :=
    fun hhi hle => lt_of_le_of_lt (UInt32.le_iff_toNat_le.1 hle) hhi
  rw [digit?] at h
  split at h
  · next hc => exact below (by decide) hc.2
  · split at h
    · next hc => exact below (by decide) hc.2
    · split at h
      · next hc => exact below (by decide) hc.2
      · cases h

/-- **What is read as a digit is one**, of either case. -/
theorem digit?_eq_some_iff {c : Char} {d : Nat} : digit? c = some d ↔ Denotes c d := by
  constructor
  · intro h
    have ascii : ∀ n < 128, ∀ d ∈ digit? (Char.ofNat n), Denotes (Char.ofNat n) d := by decide
    have hc := ascii c.toNat (toNat_lt_of_digit? h)
    rw [Char.ofNat_toNat] at hc
    exact hc d h
  · have lower : ∀ d < 16, lowerDigits[d]?.bind digit? = some d := by decide
    have upper : ∀ d < 16, upperDigits[d]?.bind digit? = some d := by decide
    intro h
    have hlt := h.lt
    rcases h with h | h
    · have hd := lower d hlt
      rwa [h, Option.bind_some] at hd
    · have hd := upper d hlt
      rwa [h, Option.bind_some] at hd

theorem isDigit_iff {c : Char} : isDigit c = true ↔ ∃ d, Denotes c d := by
  simp only [isDigit, Option.isSome_iff_exists, digit?_eq_some_iff]

/-- What begins with a digit in base ten begins with one in base sixteen. -/
theorem isDigit_of_decimal {c : Char} (h : Decimal.isDigit c = true) : isDigit c = true := by
  rw [Decimal.isDigit, Decimal.digit?] at h
  split at h
  · next hc => rw [isDigit, digit?, if_pos hc]; rfl
  · cases h

/-! ## Runs of digits -/

theorem isDigit_of_forall₂ {cs : List Char} {ds : List Nat} (h : List.Forall₂ Denotes cs ds) :
    ∀ c ∈ cs, isDigit c = true :=
  ((List.forall₂_and_left _ _).1 (h.imp fun _ _ hc => ⟨isDigit_iff.2 ⟨_, hc⟩, hc⟩)).1

/-- **The values of a run of digits** are those that its characters denote. -/
theorem filterMap_digit?_of_forall₂ {cs : List Char} {ds : List Nat}
    (h : List.Forall₂ Denotes cs ds) : cs.filterMap digit? = ds := by
  induction h with
  | nil => rfl
  | cons hc _ ih => rw [List.filterMap_cons_some (digit?_eq_some_iff.2 hc), ih]

theorem forall₂_filterMap_digit? {cs : List Char} (h : ∀ c ∈ cs, isDigit c = true) :
    List.Forall₂ Denotes cs (cs.filterMap digit?) := by
  induction cs with
  | nil => exact .nil
  | cons c cs ih =>
    obtain ⟨hc, hcs⟩ := List.forall_mem_cons.1 h
    obtain ⟨d, hd⟩ := isDigit_iff.1 hc
    rw [List.filterMap_cons_some (digit?_eq_some_iff.2 hd)]
    exact .cons hd (ih hcs)

/-- The number of some digits, in positional notation. -/
theorem ofDigits_eq (ds : List Nat) : ofDigits ds = Nat.ofDigits 16 ds.reverse :=
  Text.foldl_eq_ofDigits 16 ds

theorem forall₂_lt {cs : List Char} {ds : List Nat} (h : List.Forall₂ Denotes cs ds) :
    ∀ d ∈ ds, d < 16 :=
  ((List.forall₂_and_left _ _).1 (h.flip.imp fun _ _ hc => ⟨Denotes.lt hc, hc⟩)).1

/-- A run of digits bounds its number. -/
theorem ofDigits_lt {cs : List Char} {ds : List Nat} (h : List.Forall₂ Denotes cs ds) :
    Nat.ofDigits 16 ds.reverse < 16 ^ cs.length := by
  have hds : ∀ d ∈ ds.reverse, d < 16 := fun d hd => forall₂_lt h d (List.mem_reverse.1 hd)
  rw [h.length_eq, ← List.length_reverse]
  exact Nat.ofDigits_lt_base_pow_length (by decide) hds

theorem denotes_digitChar {d : Nat} (h : d < 16) : Denotes (digitChar d) d :=
  digit?_eq_some_iff.1 (digit?_digitChar h)

/-- **What is written spells the number.** -/
theorem forall₂_digits (n : Nat) :
    ∃ ds, List.Forall₂ Denotes (digits n) ds ∧ n = Nat.ofDigits 16 ds.reverse := by
  induction n using digits.induct with
  | case1 n h =>
    rw [digits, if_pos h]
    exact ⟨[n], .cons (denotes_digitChar h) .nil, Nat.ofDigits_singleton.symm⟩
  | case2 n h ih =>
    obtain ⟨ds, hds, hn⟩ := ih
    have hlt : n % 16 < 16 := Nat.mod_lt n (by decide)
    rw [digits, if_neg h]
    refine ⟨ds ++ [n % 16], List.rel_append hds (.cons (denotes_digitChar hlt) .nil), ?_⟩
    rw [List.reverse_append, List.reverse_singleton, List.singleton_append, Nat.ofDigits_cons,
      ← hn]
    exact (Nat.mod_add_div n 16).symm

theorem digits_ne_nil (n : Nat) : digits n ≠ [] := by
  rw [digits]
  split <;> simp

theorem length_digits_le {n k : Nat} (hk : 0 < k) (h : n < 16 ^ k) : (digits n).length ≤ k :=
  Text.length_written_le (fun n => by rw [digits]) hk h

end VideoComments.Hex

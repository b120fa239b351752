import Mathlib.Algebra.Group.Nat.Defs
import Mathlib.Data.List.Induction
import Mathlib.Data.Nat.Digits.Defs

/-!
# Runs of digits

What numerals in base ten and base sixteen have in common: a run of digits is as long as the digits
go (`takeWhile_append`, `dropWhile_append`), its number is that of positional notation
(`foldl_eq_ofDigits`), and a number is written with no more digits than it needs
(`length_written_le`). A text that ends with a number is cut before it in one way only
(`append_cons_injective`).
-/

namespace VideoComments.Text

/-- What follows does not go on with a character that passes the test. -/
def Stops (p : Char → Bool) (rest : List Char) : Prop := ∀ c ∈ rest.head?, p c = false

theorem stops_nil (p : Char → Bool) : Stops p [] := fun _ h => by cases h

theorem stops_cons {p : Char → Bool} {c : Char} {cs : List Char} :
    Stops p (c :: cs) ↔ p c = false := by
  simp [Stops]

theorem Stops.mono {p q : Char → Bool} {rest : List Char} (h : Stops q rest)
    (hpq : ∀ c, p c = true → q c = true) : Stops p rest := by
  intro c hc
  by_contra hp
  have hq := hpq c (Bool.eq_true_of_not_eq_false hp)
  rw [h c hc] at hq
  cases hq

theorem stops_dropWhile (p : Char → Bool) (cs : List Char) : Stops p (cs.dropWhile p) := by
  intro c hc
  have hstop := List.head?_dropWhile_not p cs
  rw [hc] at hstop
  simpa using hstop

variable {p : Char → Bool} {xs rest : List Char}

theorem takeWhile_append (hxs : ∀ c ∈ xs, p c = true) (hrest : Stops p rest) :
    (xs ++ rest).takeWhile p = xs := by
  rw [List.takeWhile_append_of_pos hxs]
  cases rest with
  | nil => simp
  | cons c rest => simp [stops_cons.1 hrest]

theorem dropWhile_append (hxs : ∀ c ∈ xs, p c = true) (hrest : Stops p rest) :
    (xs ++ rest).dropWhile p = rest := by
  rw [List.dropWhile_append_of_pos hxs]
  cases rest with
  | nil => rfl
  | cons c rest => simp [stops_cons.1 hrest]

/-- Digits taken one at a time, the most significant first, make the number of positional
notation. -/
theorem foldl_eq_ofDigits (base : Nat) (ds : List Nat) :
    ds.foldl (fun n d => base * n + d) 0 = Nat.ofDigits base ds.reverse := by
  induction ds using List.reverseRecOn with
  | nil => rfl
  | append_singleton ds d ih =>
    rw [List.foldl_append, List.reverse_append, List.reverse_singleton, List.singleton_append,
      Nat.ofDigits_cons, List.foldl_cons, List.foldl_nil, ih]
    exact Nat.add_comm _ _

/-- A number below a power of the base is written with as many digits as the power, or fewer. -/
theorem length_written_le {base : Nat} {write : Nat → List Char} {digitChar : Nat → Char}
    (hwrite : ∀ n, write n =
      if n < base then [digitChar n] else write (n / base) ++ [digitChar (n % base)])
    {n k : Nat} (hk : 0 < k) (h : n < base ^ k) : (write n).length ≤ k := by
  induction k generalizing n with
  | zero => exact absurd hk (Nat.lt_irrefl 0)
  | succ k ih =>
    rw [hwrite]
    split
    · exact Nat.succ_le_succ (Nat.zero_le k)
    · next hn =>
      have hk : 0 < k := by
        refine Nat.pos_of_ne_zero ?_
        rintro rfl
        exact hn (by rwa [Nat.pow_one] at h)
      rw [List.length_append]
      exact Nat.succ_le_succ (ih hk (Nat.div_lt_of_lt_mul (by rwa [Nat.pow_succ'] at h)))

/-- A delimiter that does not occur in what follows it cuts a list in one way only. -/
theorem append_cons_injective {α : Type} {x : α} {a b c d : List α}
    (h : a ++ x :: b = c ++ x :: d) (hb : x ∉ b) (hd : x ∉ d) : a = c ∧ b = d := by
  rcases List.append_eq_append_iff.1 h with ⟨e, rfl, he⟩ | ⟨e, rfl, he⟩
  · cases e with
    | nil => simpa using he
    | cons y e =>
      obtain ⟨-, rfl⟩ := List.cons.inj he
      exact absurd (List.mem_append_right e List.mem_cons_self) hb
  · cases e with
    | nil => simpa [eq_comm] using he
    | cons y e =>
      obtain ⟨-, rfl⟩ := List.cons.inj he
      exact absurd (List.mem_append_right e List.mem_cons_self) hd

end VideoComments.Text

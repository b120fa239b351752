import Mathlib.Algebra.Ring.Nat
import VideoComments.Proofs.Text.Hex
import VideoComments.Uuid.Fault

/-!
# The text of an identifier spells it

The canonical text is the second of the four spellings, and it spells the identifier that it was
made from (`parse?_toList`). So different identifiers have different texts (`text_injective`).
-/

namespace VideoComments.Uuid

open Hex (digitChar nibbles)

/-! ## Groups -/

theorem takeDigits_map {ds : List Nat} (h : ∀ d ∈ ds, d < 16) (rest : List Char) :
    takeDigits ds.length (ds.map digitChar ++ rest) = some (ds, rest) := by
  induction ds with
  | nil => rfl
  | cons d ds ih =>
    have hd := h d List.mem_cons_self
    have hds := ih fun d hd => h d (List.mem_cons_of_mem _ hd)
    simp only [List.length_cons, List.map_cons, List.cons_append, takeDigits,
      Hex.digit?_digitChar hd, hds]

/-- A character that is no digit ends a run that is too short. -/
theorem takeDigits_eq_none {n : Nat} {ds : List Nat} (h : ∀ d ∈ ds, d < 16) (hn : ds.length < n)
    {c : Char} (hc : Hex.digit? c = none) (rest : List Char) :
    takeDigits n (ds.map digitChar ++ c :: rest) = none := by
  induction ds generalizing n with
  | nil =>
    obtain ⟨n, rfl⟩ := Nat.exists_eq_add_of_lt hn
    simp [takeDigits, hc]
  | cons d ds ih =>
    obtain ⟨n, rfl⟩ : ∃ m, n = m + 1 := ⟨n - 1, by simp only [List.length_cons] at hn; omega⟩
    have hds := ih (n := n) (fun d hd => h d (List.mem_cons_of_mem _ hd)) (by simpa using hn)
    simp [takeDigits, hds]

/-- Groups of digits with hyphens between them are read back. -/
theorem takeGroups_hyphenate (n : Nat) (ns : List Nat) {ds : List Nat} (h : ∀ d ∈ ds, d < 16)
    (hlen : ds.length = (n :: ns).sum) :
    takeGroups (n :: ns) (hyphenate (n :: ns) (ds.map digitChar)) = some ds := by
  induction ns generalizing n ds with
  | nil =>
    obtain rfl : ds.length = n := by simpa using hlen
    have hds := takeDigits_map h []
    rw [List.append_nil] at hds
    simp [takeGroups, hyphenate, hds]
  | cons m ns ih =>
    have htake : ∀ d ∈ ds.take n, d < 16 := fun d hd => h d (List.mem_of_mem_take hd)
    have hdrop : ∀ d ∈ ds.drop n, d < 16 := fun d hd => h d (List.mem_of_mem_drop hd)
    have hn : (ds.take n).length = n := by
      rw [List.length_take, hlen, List.sum_cons]
      omega
    have hrest := ih m hdrop (by rw [List.length_drop, hlen, List.sum_cons]; omega)
    have hfirst := takeDigits_map htake ('-' :: hyphenate (m :: ns) ((ds.drop n).map digitChar))
    rw [hn] at hfirst
    simp only [hyphenate, takeGroups, ← List.map_take, ← List.map_drop, hfirst, hrest,
      Option.map_some, List.take_append_drop]

/-! ## Reading the text back -/

theorem digits_eq_map (u : Uuid) : u.digits = (nibbles 32 u.toNat).map digitChar :=
  Hex.padded_eq_map 32 u.toNat

theorem hyphenated?_toList (u : Uuid) : hyphenated? u.toList = some (nibbles 32 u.toNat) := by
  rw [hyphenated?, toList, digits_eq_map]
  exact takeGroups_hyphenate _ _ (fun _ hd => Hex.nibbles_lt hd) (Hex.length_nibbles 32 _)

/-- The first hyphen stands too early for thirty-two digits in a row. -/
theorem plain?_toList (u : Uuid) : plain? u.toList = none := by
  have hlt : ∀ d ∈ (nibbles 32 u.toNat).take 8, d < 16 := fun d hd =>
    Hex.nibbles_lt (List.mem_of_mem_take hd)
  have hnone := takeDigits_eq_none (n := 32) hlt (by simp) (c := '-') (by decide)
    (hyphenate [4, 4, 4, 12] (((nibbles 32 u.toNat).map digitChar).drop 8))
  rw [plain?, toList, digits_eq_map]
  simp only [takeGroups, groupLengths, hyphenate, ← List.map_take] at hnone ⊢
  rw [hnone]

/-- **The text of an identifier spells it.** -/
theorem parse?_toList (u : Uuid) : parse? u.toList = some u := by
  have hspelled : spelled? u.toList = some (nibbles 32 u.toNat) := by
    rw [spelled?, plain?_toList, hyphenated?_toList]
    rfl
  have hlt : u.toNat < 16 ^ 32 := u.bits.isLt
  rw [parse?, hspelled, Option.map_some, Hex.ofDigits_nibbles, Nat.mod_eq_of_lt hlt]
  exact congrArg (fun b => some (Uuid.mk b)) (BitVec.ofNat_toNat _ _)

theorem ofText_text (u : Uuid) : ofText u.text = .ok u := by
  rw [ofText, text, String.toList_ofList, parse?_toList]

/-- Different identifiers have different texts. -/
theorem text_injective {u v : Uuid} (h : u.text = v.text) : u = v := by
  have hu := ofText_text u
  rw [h, ofText_text] at hu
  exact (Except.ok.inj hu).symm

end VideoComments.Uuid

import Mathlib.Data.List.Forall2
import VideoComments.Proofs.Text.Hex
import VideoComments.Uuid.Spelling

/-!
# The grammar of identifiers

`Spells cs ds` says that the text `cs` is one of the four spellings of the 32 digits `ds`, without
regard to how texts are read. Reading agrees with it on every text (`spelled?_eq_some_iff`): what is
read is spelled, and since the four spellings differ in length none of them gets in the way of
another. The identifier is the number of its digits (`parse?_eq_some_iff`).
-/

namespace VideoComments.Uuid

open Hex (Denotes)

/-! ## Spellings -/

/-- Groups of digits, of the given lengths and with a hyphen between each two. -/
inductive Groups : List Nat → List Char → List Nat → Prop
  | last {n : Nat} {cs : List Char} {ds : List Nat} (hlength : cs.length = n)
      (h : List.Forall₂ Denotes cs ds) : Groups [n] cs ds
  | cons {n m : Nat} {ns : List Nat} {cs more : List Char} {ds others : List Nat}
      (hlength : cs.length = n) (h : List.Forall₂ Denotes cs ds)
      (hmore : Groups (m :: ns) more others) :
      Groups (n :: m :: ns) (cs ++ '-' :: more) (ds ++ others)

/-- The text spells the digits of an identifier. -/
inductive Spells : List Char → List Nat → Prop
  | plain {cs : List Char} {ds : List Nat} (h : Groups [32] cs ds) : Spells cs ds
  | hyphenated {cs : List Char} {ds : List Nat} (h : Groups [8, 4, 4, 4, 12] cs ds) : Spells cs ds
  | braced {cs : List Char} {ds : List Nat} (h : Groups [8, 4, 4, 4, 12] cs ds) :
      Spells ('{' :: cs ++ ['}']) ds
  /-- The registered name is of any letter case. -/
  | registered {name cs : List Char} {ds : List Nat}
      (hname : List.Forall₂ (fun c l => c = l ∨ c = l.toUpper) name
        ['u', 'r', 'n', ':', 'u', 'u', 'i', 'd', ':'])
      (h : Groups [8, 4, 4, 4, 12] cs ds) : Spells (name ++ cs) ds

/-! ## Groups are read -/

theorem takeDigits_eq_some_iff {n : Nat} {cs rest : List Char} {ds : List Nat} :
    takeDigits n cs = some (ds, rest) ↔
      ∃ xs, cs = xs ++ rest ∧ xs.length = n ∧ List.Forall₂ Denotes xs ds := by
  induction n generalizing cs ds with
  | zero =>
    constructor
    · intro h
      cases h
      exact ⟨[], rfl, rfl, .nil⟩
    · rintro ⟨xs, rfl, hlength, hdigits⟩
      obtain rfl := List.length_eq_zero_iff.1 hlength
      cases hdigits
      rfl
  | succ n ih =>
    constructor
    · intro h
      cases cs with
      | nil => cases h
      | cons c cs =>
        rw [takeDigits] at h
        cases hc : Hex.digit? c with
        | none =>
          rw [hc] at h
          cases h
        | some d =>
          cases hmore : takeDigits n cs with
          | none =>
            rw [hc, hmore] at h
            cases h
          | some p =>
            rw [hc, hmore] at h
            cases h
            obtain ⟨xs, rfl, hlength, hdigits⟩ := ih.1 hmore
            exact ⟨c :: xs, rfl, congrArg Nat.succ hlength,
              .cons (Hex.digit?_eq_some_iff.1 hc) hdigits⟩
    · rintro ⟨xs, rfl, hlength, hdigits⟩
      cases hdigits with
      | nil => cases hlength
      | cons hc hdigits =>
        have hmore := ih.2 ⟨_, rfl, Nat.succ.inj hlength, hdigits⟩
        rw [List.cons_append, takeDigits, Hex.digit?_eq_some_iff.2 hc, hmore]

theorem takeGroups_eq_some_iff {ns : List Nat} (hns : ns ≠ []) {cs : List Char} {ds : List Nat} :
    takeGroups ns cs = some ds ↔ Groups ns cs ds := by
  induction ns generalizing cs ds with
  | nil => exact absurd rfl hns
  | cons n ns ih =>
    cases ns with
    | nil =>
      constructor
      · intro h
        rw [takeGroups] at h
        split at h
        · next ds' hdigits =>
          cases h
          obtain ⟨xs, rfl, hlength, hdigits⟩ := takeDigits_eq_some_iff.1 hdigits
          rw [List.append_nil]
          exact .last hlength hdigits
        · cases h
      · intro h
        cases h with
        | last hlength hdigits =>
          have htake := takeDigits_eq_some_iff.2 ⟨cs, (List.append_nil cs).symm, hlength, hdigits⟩
          rw [takeGroups, htake]
    | cons m ns =>
      constructor
      · intro h
        rw [takeGroups] at h
        · split at h
          · next ds' rest hdigits =>
            obtain ⟨others, hmore, rfl⟩ := Option.map_eq_some_iff.1 h
            obtain ⟨xs, rfl, hlength, hdigits⟩ := takeDigits_eq_some_iff.1 hdigits
            exact .cons hlength hdigits ((ih (by simp)).1 hmore)
          · cases h
        · simp
      · intro h
        cases h with
        | @cons _ _ _ xs more ds' others hlength hdigits hmore =>
          rw [takeGroups, takeDigits_eq_some_iff.2 ⟨xs, rfl, hlength, hdigits⟩]
          · simp only [(ih (by simp)).2 hmore, Option.map_some]
          · simp

/-- A hyphen stands between each two groups. -/
theorem Groups.length {ns : List Nat} {cs : List Char} {ds : List Nat} (h : Groups ns cs ds) :
    cs.length + 1 = ns.sum + ns.length ∧ ds.length = ns.sum := by
  induction h with
  | last hlength hdigits =>
    have := hdigits.length_eq
    simp only [List.sum_singleton, List.length_singleton]
    omega
  | cons hlength hdigits _ ih =>
    have := hdigits.length_eq
    simp only [List.length_append, List.length_cons, List.sum_cons] at ih ⊢
    omega

theorem Groups.lt {ns : List Nat} {cs : List Char} {ds : List Nat} (h : Groups ns cs ds) :
    ∀ d ∈ ds, d < 16 := by
  have hdigits : ∀ {xs : List Char} {ds : List Nat}, List.Forall₂ Denotes xs ds →
      ∀ d ∈ ds, d < 16 := by
    intro xs ds h
    induction h with
    | nil => exact List.forall_mem_nil _
    | cons hd _ ih => exact List.forall_mem_cons.2 ⟨hd.lt, ih⟩
  induction h with
  | last _ h => exact hdigits h
  | cons _ h _ ih => exact List.forall_mem_append.2 ⟨hdigits h, ih⟩

/-! ## What stands around groups -/

theorem unbraced?_eq_some_iff {cs body : List Char} :
    unbraced? cs = some body ↔ cs = '{' :: body ++ ['}'] := by
  constructor
  · intro h
    rw [unbraced?.eq_def] at h
    split at h
    · next cs =>
      split at h
      · next hlast =>
        cases h
        obtain ⟨hne, hlast⟩ := List.getLast?_eq_some_iff.1 hlast
        rw [hlast, List.dropLast_concat, List.cons_append]
      · cases h
    · cases h
  · rintro rfl
    rw [List.cons_append, unbraced?, List.getLast?_concat, List.dropLast_concat, if_pos rfl]

/-- Only ASCII letters have a lower case of their own. -/
theorem toLower_eq_self_or (c : Char) : c.toLower = c ∨ c.toNat < 128 := by
  by_cases hc : c.val ≥ 'A'.val ∧ c.val ≤ 'Z'.val
  · exact .inr (lt_of_le_of_lt (UInt32.le_iff_toNat_le.1 hc.2) (by decide))
  · exact .inl (dif_neg hc)

/-- The letters whose lower case is in the registered name. -/
theorem toLower_eq_iff {c l : Char} (hl : l ∈ namespaceName) :
    c.toLower = l ↔ c = l ∨ c = l.toUpper := by
  constructor
  · intro h
    rcases toLower_eq_self_or c with hself | hascii
    · exact .inl (hself.symm.trans h)
    · have ascii : ∀ n < 128, namespaceName.all (fun l => (Char.ofNat n).toLower = l →
          Char.ofNat n = l ∨ Char.ofNat n = l.toUpper) = true := by decide
      have hc := of_decide_eq_true (List.all_eq_true.1 (ascii c.toNat hascii) l hl)
      rw [Char.ofNat_toNat] at hc
      exact hc h
  · have both : namespaceName.all (fun l => l.toLower = l ∧ l.toUpper.toLower = l) = true := by
      decide
    obtain ⟨hlower, hupper⟩ := of_decide_eq_true (List.all_eq_true.1 both l hl)
    rintro (rfl | rfl)
    · exact hlower
    · exact hupper

/-- The registered name is recognised in any letter case. -/
theorem map_toLower_eq_iff {name letters : List Char}
    (hletters : ∀ l ∈ letters, l ∈ namespaceName) : name.map Char.toLower = letters ↔
      List.Forall₂ (fun c l => c = l ∨ c = l.toUpper) name letters := by
  induction letters generalizing name with
  | nil => simp
  | cons l letters ih =>
    rw [List.forall_mem_cons] at hletters
    cases name with
    | nil => simp
    | cons c name =>
      rw [List.map_cons, List.cons.injEq, List.forall₂_cons, toLower_eq_iff hletters.1,
        ih hletters.2]

theorem unregistered?_eq_some_iff {cs body : List Char} :
    unregistered? cs = some body ↔ ∃ name, cs = name ++ body ∧
      List.Forall₂ (fun c l => c = l ∨ c = l.toUpper) name namespaceName := by
  simp only [← map_toLower_eq_iff fun _ hl => hl]
  constructor
  · intro h
    rw [unregistered?] at h
    split at h
    · next hname =>
      cases h
      exact ⟨_, (List.take_append_drop _ _).symm, hname⟩
    · cases h
  · rintro ⟨name, rfl, hname⟩
    have hlength : name.length = namespaceName.length := by rw [← hname, List.length_map]
    rw [unregistered?, ← hlength, List.take_left, List.drop_left, if_pos hname]

/-! ## Spellings are read -/

theorem plain?_eq_some_iff {cs : List Char} {ds : List Nat} :
    plain? cs = some ds ↔ Groups [32] cs ds :=
  takeGroups_eq_some_iff (List.cons_ne_nil _ _)

theorem hyphenated?_eq_some_iff {cs : List Char} {ds : List Nat} :
    hyphenated? cs = some ds ↔ Groups [8, 4, 4, 4, 12] cs ds :=
  takeGroups_eq_some_iff (List.cons_ne_nil _ _)

theorem plain?_eq_none {cs : List Char} (h : cs.length ≠ 32) : plain? cs = none :=
  Option.eq_none_iff_forall_ne_some.2 fun _ hds =>
    h (Nat.succ.inj (plain?_eq_some_iff.1 hds).length.1)

theorem hyphenated?_eq_none {cs : List Char} (h : cs.length ≠ 36) : hyphenated? cs = none :=
  Option.eq_none_iff_forall_ne_some.2 fun _ hds =>
    h (Nat.succ.inj (hyphenated?_eq_some_iff.1 hds).length.1)

theorem unbraced?_bind_eq_none {cs : List Char} (h : cs.length ≠ 38) :
    (unbraced? cs).bind hyphenated? = none := by
  refine Option.bind_eq_none_iff.2 fun body hbody => hyphenated?_eq_none fun hlength => h ?_
  rw [unbraced?_eq_some_iff.1 hbody, List.length_append, List.length_cons, hlength,
    List.length_singleton]

/-- **What is read is spelled, and what is spelled is read**: a text can only have one of the four
lengths. -/
theorem spelled?_eq_some_iff {cs : List Char} {ds : List Nat} :
    spelled? cs = some ds ↔ Spells cs ds := by
  simp only [spelled?, Option.orElse_eq_some, Option.bind_eq_some_iff, plain?_eq_some_iff,
    hyphenated?_eq_some_iff, unbraced?_eq_some_iff, unregistered?_eq_some_iff]
  constructor
  · rintro (h | ⟨-, h | ⟨-, ⟨body, rfl, h⟩ | ⟨-, body, ⟨name, rfl, hname⟩, h⟩⟩⟩)
    · exact .plain h
    · exact .hyphenated h
    · exact .braced h
    · exact .registered hname h
  · intro h
    cases h with
    | plain h => exact .inl h
    | hyphenated h =>
      have hlength : cs.length = 36 := Nat.succ.inj h.length.1
      exact .inr ⟨plain?_eq_none (by omega), .inl h⟩
    | @braced body _ h =>
      have hlength : ('{' :: body ++ ['}']).length = 38 := by
        rw [List.length_append, List.length_cons, Nat.succ.inj h.length.1, List.length_singleton]
        rfl
      exact .inr ⟨plain?_eq_none (by omega), .inr ⟨hyphenated?_eq_none (by omega),
        .inl ⟨body, rfl, h⟩⟩⟩
    | @registered name body _ hname h =>
      have hlength : (name ++ body).length = 45 := by
        rw [List.length_append, hname.length_eq, Nat.succ.inj h.length.1]
        rfl
      exact .inr ⟨plain?_eq_none (by omega), .inr ⟨hyphenated?_eq_none (by omega),
        .inr ⟨unbraced?_bind_eq_none (by omega), body, ⟨name, rfl, hname⟩, h⟩⟩⟩

/-- Thirty-two digits spell a number of 128 bits. -/
theorem Spells.lt {cs : List Char} {ds : List Nat} (h : Spells cs ds) :
    Nat.ofDigits 16 ds.reverse < 2 ^ 128 := by
  have hbound : ∀ {ns cs}, Groups ns cs ds → ns.sum = 32 →
      Nat.ofDigits 16 ds.reverse < 2 ^ 128 := fun hgroups hsum => by
    have hlt := Nat.ofDigits_lt_base_pow_length (b := 16) (l := ds.reverse) (by decide)
      fun d hd => hgroups.lt d (List.mem_reverse.1 hd)
    rw [List.length_reverse, hgroups.length.2, hsum] at hlt
    exact hlt
  cases h with
  | plain h | hyphenated h | braced h | registered _ h => exact hbound h rfl

/-- There is room for the number. -/
theorem Spells.toNat_ofNat {cs : List Char} {ds : List Nat} (h : Spells cs ds) :
    (ofNat (Nat.ofDigits 16 ds.reverse)).toNat = Nat.ofDigits 16 ds.reverse := by
  rw [toNat, ofNat, BitVec.toNat_ofNat, Nat.mod_eq_of_lt h.lt]

/-- **The identifier is the number that its digits spell.** -/
theorem parse?_eq_some_iff {cs : List Char} {u : Uuid} :
    parse? cs = some u ↔ ∃ ds, Spells cs ds ∧ u.toNat = Nat.ofDigits 16 ds.reverse := by
  simp only [parse?, Option.map_eq_some_iff, spelled?_eq_some_iff, Hex.ofDigits_eq]
  refine exists_congr fun ds => and_congr_right fun hds => ?_
  constructor
  · rintro rfl
    exact hds.toNat_ofNat
  · intro hu
    exact congrArg Uuid.mk (BitVec.eq_of_toNat_eq (hds.toNat_ofNat.trans hu.symm))

end VideoComments.Uuid

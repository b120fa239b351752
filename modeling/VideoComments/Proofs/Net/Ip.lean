import Mathlib.Data.List.TakeWhile
import VideoComments.Net.Ip
import VideoComments.Proofs.Text.Decimal
import VideoComments.Proofs.Text.Hex

/-!
# The grammar of internet addresses

An IPv4 address has one spelling, which is what is written (`Ipv4.read?_eq_some_iff`). An IPv6
address has many: `Ipv6.Spells` says which they are, without regard to how texts are read. What is
read is spelled (`Ipv6.Spells.of_read?`), and every spelling is read as the address it spells as
long as nothing follows that could be taken for more of it (`Ipv6.Spells.read?`).
-/

namespace VideoComments

open Text (Stops stops_cons takeWhile_append dropWhile_append stops_dropWhile)

/-! ## Four bytes -/

namespace Ipv4

theorem toNat_lt (x : UInt8) : x.toNat < 10 ^ 3 := lt_trans (UInt8.toNat_lt x) (by decide)

theorem part?_eq_some_iff {cs rest : List Char} {x : UInt8} :
    part? cs = some (x, rest) ↔
      cs = Decimal.digits x.toNat ++ rest ∧ Stops Decimal.isDigit rest := by
  constructor
  · intro h
    simp only [part?] at h
    split at h
    · cases h
    · next hlength =>
      split at h
      · next n hn =>
        split at h
        · next hlt =>
          cases h
          have hdigits := Decimal.Numeral.eq_digits_of_canonical
            (Decimal.natural?_eq_some_iff.1 hn) fun hzero => hlength (.inr hzero)
          rw [UInt8.toNat_ofNat_of_lt' hlt, ← hdigits]
          exact ⟨List.takeWhile_append_dropWhile.symm, stops_dropWhile _ _⟩
        · cases h
      · cases h
  · rintro ⟨rfl, hrest⟩
    have hdigits := fun c => Decimal.isDigit_of_mem_digits (n := x.toNat) (c := c)
    have hlength : ¬ (3 < (Decimal.digits x.toNat).length ∨
        (1 < (Decimal.digits x.toNat).length ∧ (Decimal.digits x.toNat).head? = some '0')) :=
      not_or.2 ⟨Nat.not_lt.2 (Decimal.length_digits_le (by decide) (toNat_lt x)),
        Decimal.not_leadingZero_digits _⟩
    simp only [part?, takeWhile_append hdigits hrest, dropWhile_append hdigits hrest,
      if_neg hlength, Decimal.natural?_digits, if_pos (UInt8.toNat_lt x), UInt8.ofNat_toNat]

theorem nextPart?_eq_some_iff {cs rest : List Char} {x : UInt8} :
    nextPart? cs = some (x, rest) ↔
      cs = '.' :: Decimal.digits x.toNat ++ rest ∧ Stops Decimal.isDigit rest := by
  constructor
  · intro h
    unfold nextPart? at h
    split at h
    · obtain ⟨rfl, hrest⟩ := part?_eq_some_iff.1 h
      exact ⟨rfl, hrest⟩
    · cases h
  · rintro ⟨rfl, hrest⟩
    exact part?_eq_some_iff.2 ⟨rfl, hrest⟩

theorem toList_append (ip : Ipv4) (rest : List Char) :
    ip.toList ++ rest = Decimal.digits ip.a.toNat ++ ('.' :: Decimal.digits ip.b.toNat ++
      ('.' :: Decimal.digits ip.c.toNat ++ ('.' :: Decimal.digits ip.d.toNat ++ rest))) := by
  simp [toList]

/-- **What is read as an address is what is written for it**, up to the last digit. -/
theorem read?_eq_some_iff {cs rest : List Char} {ip : Ipv4} :
    read? cs = some (ip, rest) ↔ cs = ip.toList ++ rest ∧ Stops Decimal.isDigit rest := by
  have point : ∀ cs : List Char, Stops Decimal.isDigit ('.' :: cs) :=
    fun _ => stops_cons.2 (by decide)
  simp only [read?, Option.bind_eq_bind, Option.bind_eq_some_iff, Prod.exists,
    part?_eq_some_iff, nextPart?_eq_some_iff]
  constructor
  · rintro ⟨a, _, ⟨rfl, -⟩, b, _, ⟨rfl, -⟩, c, _, ⟨rfl, -⟩, d, _, ⟨rfl, hrest⟩, h⟩
    cases h
    exact ⟨(toList_append ⟨a, b, c, d⟩ _).symm, hrest⟩
  · rintro ⟨rfl, hrest⟩
    exact ⟨ip.a, _, ⟨toList_append ip rest, point _⟩, ip.b, _, ⟨rfl, point _⟩,
      ip.c, _, ⟨rfl, point _⟩, ip.d, rest, ⟨rfl, hrest⟩, rfl⟩

end Ipv4

/-! ## Eight groups -/

namespace Ipv6

/-- One to four digits of either case spell a group. -/
structure Group (cs : List Char) (g : UInt16) : Prop where
  pos : 0 < cs.length
  length_le : cs.length ≤ 4
  digits : ∃ ds, List.Forall₂ Hex.Denotes cs ds ∧ g.toNat = Nat.ofDigits 16 ds.reverse

/-- The colon before a group; the first group has none. -/
def colon (first : Bool) : List Char := if first then [] else [':']

/-- Groups with colons between them, of which an IPv4 address may be the last two. A sequence that
goes on after other groups has a colon in front. -/
inductive Sequence : (first dotted : Bool) → List Char → List UInt16 → Prop
  | nil {first : Bool} : Sequence first false [] []
  | ipv4 {first : Bool} (ip : Ipv4) : Sequence first true (colon first ++ ip.toList) ip.groups
  | cons {first dotted : Bool} {xs cs : List Char} {g : UInt16} {gs : List UInt16}
      (hg : Group xs g) (hgs : Sequence false dotted cs gs) :
      Sequence first dotted (colon first ++ (xs ++ cs)) (g :: gs)

/-- The text spells the address: all eight groups, or two colons in place of at least one zero
group. An IPv4 address stands at the very end. -/
inductive Spells : List Char → Ipv6 → Prop
  | full {dotted : Bool} {cs : List Char} {ip : Ipv6} (h : Sequence true dotted cs ip.groups) :
      Spells cs ip
  | compressed {dotted : Bool} {front back : List Char} {gs hs : List UInt16} {zeros : Nat}
      {ip : Ipv6} (hfront : Sequence true false front gs) (hback : Sequence true dotted back hs)
      (hzeros : 0 < zeros) (hip : ip.groups = gs ++ List.replicate zeros 0 ++ hs) :
      Spells (front ++ ':' :: ':' :: back) ip

/-- May the character stand in a group or in an IPv4 address? -/
def isPart (c : Char) : Bool := Hex.isDigit c || c = '.'

/-- What follows, even behind a colon, cannot be taken for more of an address. -/
structure Ends (rest : List Char) : Prop where
  stops : Stops isPart rest
  colon : ∀ cs, rest = ':' :: cs → Stops isPart cs

/-! ### A group -/

theorem group?_eq_some_iff {cs rest : List Char} {g : UInt16} :
    group? cs = some (g, rest) ↔
      ∃ xs, cs = xs ++ rest ∧ Group xs g ∧ Stops Hex.isDigit rest := by
  constructor
  · intro h
    simp only [group?] at h
    split at h
    · cases h
    · next hlength =>
      cases h
      rw [not_or, Nat.not_lt] at hlength
      have hdigits := Hex.forall₂_filterMap_digit? fun c (hc : c ∈ cs.takeWhile Hex.isDigit) =>
        List.mem_takeWhile_imp hc
      refine ⟨_, List.takeWhile_append_dropWhile.symm,
        ⟨Nat.pos_of_ne_zero hlength.1, hlength.2, _, hdigits, ?_⟩, stops_dropWhile _ _⟩
      rw [Hex.ofDigits_eq, UInt16.toNat_ofNat_of_lt']
      exact (Hex.ofDigits_lt hdigits).trans_le (Nat.pow_le_pow_right (by decide) hlength.2)
  · rintro ⟨xs, rfl, ⟨hpos, hle, ds, hds, hg⟩, hrest⟩
    have hdigits := Hex.isDigit_of_forall₂ hds
    have hlength : ¬ (xs.length = 0 ∨ 4 < xs.length) := by omega
    simp only [group?, takeWhile_append hdigits hrest, dropWhile_append hdigits hrest,
      if_neg hlength, Hex.filterMap_digit?_of_forall₂ hds, Hex.ofDigits_eq, ← hg,
      UInt16.ofNat_toNat]

theorem Group.isDigit {xs : List Char} {g : UInt16} (h : Group xs g) :
    ∀ c ∈ xs, Hex.isDigit c = true := by
  obtain ⟨ds, hds, -⟩ := h.digits
  exact Hex.isDigit_of_forall₂ hds

theorem stops_hex {rest : List Char} (h : Stops isPart rest) : Stops Hex.isDigit rest :=
  h.mono fun _ hc => Bool.or_eq_true_iff.2 (.inl hc)

theorem stops_decimal {rest : List Char} (h : Stops isPart rest) : Stops Decimal.isDigit rest :=
  (stops_hex h).mono fun _ => Hex.isDigit_of_decimal

/-- Digits with no point behind them do not begin an IPv4 address. -/
theorem ipv4_eq_none {xs rest : List Char} (hxs : ∀ c ∈ xs, Hex.isDigit c = true)
    (hrest : Stops isPart rest) : Ipv4.read? (xs ++ rest) = none := by
  cases h : Ipv4.read? (xs ++ rest) with
  | none => rfl
  | some r =>
    obtain ⟨hcs, -⟩ := Ipv4.read?_eq_some_iff.1 h
    rw [Ipv4.toList_append] at hcs
    -- What stands behind the first run of digits would be a point.
    have hdrop := dropWhile_append hxs (stops_hex hrest)
    rw [hcs, List.cons_append, dropWhile_append
      (fun c hc => Hex.isDigit_of_decimal (Decimal.isDigit_of_mem_digits hc))
      (stops_cons.2 (by decide))] at hdrop
    rw [← hdrop, stops_cons] at hrest
    exact absurd hrest (by decide)

/-! ### Sequences of groups -/

theorem afterColon?_eq_some_iff {first : Bool} {cs body : List Char} :
    afterColon? first cs = some body ↔ cs = colon first ++ body := by
  cases first with
  | true => simp [afterColon?, colon]
  | false =>
    constructor
    · intro h
      simp only [afterColon?, Bool.false_eq_true, if_false] at h
      split at h
      · cases h
        rfl
      · cases h
    · rintro rfl
      rfl

theorem readGroups_of_no_colon {first : Bool} {cs : List Char} (h : afterColon? first cs = none)
    (room : Nat) : readGroups (room + 1) first cs = ⟨[], false, cs⟩ := by
  rw [Ipv6.readGroups, h]

/-- Behind the colon stands an IPv4 address, if there is room for its two groups, or a group that
further groups may follow. -/
theorem readGroups_colon (room : Nat) (first : Bool) (body : List Char) :
    readGroups (room + 1) first (colon first ++ body) =
      match if 0 < room then Ipv4.read? body else none with
      | some (v4, rest) => ⟨v4.groups, true, rest⟩
      | none =>
        match group? body with
        | none => ⟨[], false, colon first ++ body⟩
        | some (g, rest) =>
          { readGroups room false rest with
            groups := g :: (readGroups room false rest).groups } := by
  rewrite [Ipv6.readGroups, afterColon?_eq_some_iff.2 rfl]
  rfl

theorem Ends.readGroups {rest : List Char} (h : Ends rest) (room : Nat) (first : Bool) :
    readGroups room first rest = ⟨[], false, rest⟩ := by
  cases room with
  | zero => rfl
  | succ room =>
    cases hbody : afterColon? first rest with
    | none => exact readGroups_of_no_colon hbody room
    | some body =>
      obtain rfl := afterColon?_eq_some_iff.1 hbody
      have hstops : Stops isPart body := by
        cases first with
        | true => exact h.stops
        | false => exact h.colon body rfl
      have hgroup : group? body = none := by
        cases hg : group? body with
        | none => rfl
        | some r =>
          obtain ⟨xs, rfl, hxs, -⟩ := group?_eq_some_iff.1 hg
          obtain ⟨c, cs, rfl⟩ := List.exists_cons_of_length_pos hxs.pos
          have hc := hxs.isDigit c List.mem_cons_self
          rw [stops_hex hstops c rfl] at hc
          cases hc
      have hipv4 : Ipv4.read? body = none := ipv4_eq_none (List.forall_mem_nil _) hstops
      simp only [readGroups_colon, hipv4, ite_self, hgroup]

theorem Sequence.stops {dotted : Bool} {cs rest : List Char} {gs : List UInt16}
    (h : Sequence false dotted cs gs) (hrest : Ends rest) : Stops isPart (cs ++ rest) := by
  cases h with
  | nil => exact hrest.stops
  | ipv4 => exact stops_cons.2 (by decide)
  | cons => exact stops_cons.2 (by decide)

theorem readGroups_ipv4 {room : Nat} {first : Bool} {cs rest : List Char} {ip : Ipv4}
    (h : Ipv4.read? cs = some (ip, rest)) :
    readGroups (room + 2) first (colon first ++ cs) = ⟨ip.groups, true, rest⟩ := by
  simp only [readGroups_colon, Nat.succ_pos, if_true, h]

theorem readGroups_group {room : Nat} {first : Bool} {cs rest : List Char} {g : UInt16}
    (hipv4 : Ipv4.read? cs = none) (h : group? cs = some (g, rest)) :
    readGroups (room + 1) first (colon first ++ cs) =
      { Ipv6.readGroups room false rest with
        groups := g :: (Ipv6.readGroups room false rest).groups } := by
  simp only [readGroups_colon, hipv4, ite_self, h]

/-- **Every sequence is read as its groups**, if there is room for them. -/
theorem Sequence.readGroups {first dotted : Bool} {cs rest : List Char} {gs : List UInt16}
    (h : Sequence first dotted cs gs) (hrest : Ends rest) {room : Nat} (hroom : gs.length ≤ room) :
    readGroups room first (cs ++ rest) = ⟨gs, dotted, rest⟩ := by
  induction h generalizing room with
  | nil => exact hrest.readGroups room _
  | ipv4 ip =>
    obtain ⟨room, rfl⟩ := Nat.exists_eq_add_of_le' hroom
    rw [List.append_assoc]
    exact readGroups_ipv4 (Ipv4.read?_eq_some_iff.2 ⟨rfl, stops_decimal hrest.stops⟩)
  | cons hg hgs ih =>
    cases room with
    | zero => exact absurd hroom (Nat.not_succ_le_zero _)
    | succ room =>
      -- Behind the group stands a colon or what ends the sequence, so it is not read any further
      -- and not taken for the beginning of an IPv4 address.
      have hstops := hgs.stops hrest
      rw [List.append_assoc, List.append_assoc,
        readGroups_group (ipv4_eq_none hg.isDigit hstops)
          (group?_eq_some_iff.2 ⟨_, rfl, hg, stops_hex hstops⟩),
        ih (Nat.le_of_succ_le_succ hroom)]

/-- **What is read is a sequence**, of no more groups than there is room for. -/
theorem sequence_of_readGroups (room : Nat) (first : Bool) (cs : List Char) :
    ∃ xs, cs = xs ++ (readGroups room first cs).rest ∧
      Sequence first (readGroups room first cs).endsInIpv4 xs (readGroups room first cs).groups ∧
      (readGroups room first cs).groups.length ≤ room := by
  induction room generalizing first cs with
  | zero => exact ⟨[], rfl, .nil, Nat.le_refl 0⟩
  | succ room ih =>
    have nothing : ∃ xs, cs = xs ++ cs ∧ Sequence first false xs [] ∧ 0 ≤ room + 1 :=
      ⟨[], rfl, .nil, Nat.zero_le _⟩
    cases hbody : afterColon? first cs with
    | none =>
      rw [readGroups_of_no_colon hbody]
      exact nothing
    | some body =>
      obtain rfl := afterColon?_eq_some_iff.1 hbody
      rw [readGroups_colon]
      split
      · next ip rest hip =>
        split at hip
        · next hroom =>
          obtain ⟨rfl, -⟩ := Ipv4.read?_eq_some_iff.1 hip
          exact ⟨_, (List.append_assoc _ _ _).symm, .ipv4 ip, Nat.succ_le_succ hroom⟩
        · cases hip
      · split
        · exact nothing
        · next g rest hg =>
          obtain ⟨xs, rfl, hxs, -⟩ := group?_eq_some_iff.1 hg
          obtain ⟨ys, hys, hsequence, hlength⟩ := ih false rest
          refine ⟨colon first ++ (xs ++ ys), ?_, .cons hxs hsequence, Nat.succ_le_succ hlength⟩
          rw [List.append_assoc, List.append_assoc, ← hys]

/-! ### Whole addresses -/

theorem ofGroups?_eq_some_iff {gs : List UInt16} {ip : Ipv6} :
    ofGroups? gs = some ip ↔ ip.groups = gs := by
  rw [ofGroups?]
  constructor
  · intro h
    split at h
    · cases h
      rfl
    · cases h
  · rintro rfl
    rw [dif_pos ip.length_eq]

/-- **What is read as an address spells it.** -/
theorem Spells.of_read? {cs rest : List Char} {ip : Ipv6} (h : read? cs = some (ip, rest)) :
    ∃ xs, cs = xs ++ rest ∧ Spells xs ip := by
  obtain ⟨front, hcs, hfront, hle⟩ := sequence_of_readGroups 8 true cs
  simp only [Ipv6.read?] at h
  split at h
  · obtain ⟨ip', hip, hr⟩ := Option.map_eq_some_iff.1 h
    cases hr
    rw [← ofGroups?_eq_some_iff.1 hip] at hfront
    exact ⟨front, hcs, .full hfront⟩
  · split at h
    · cases h
    · next hdotted =>
      split at h
      · next behind hbehind =>
        obtain ⟨ip', hip, hr⟩ := Option.map_eq_some_iff.1 h
        cases hr
        -- There was room for one group less than are missing, so that a zero group is left out.
        obtain ⟨back, hback, hsequence, hlength⟩ :=
          sequence_of_readGroups (7 - (readGroups 8 true cs).groups.length) true behind
        rw [Bool.not_eq_true] at hdotted
        rw [hdotted] at hfront
        refine ⟨front ++ ':' :: ':' :: back, ?_,
          .compressed hfront hsequence ?_ (ofGroups?_eq_some_iff.1 hip)⟩
        · rw [List.append_assoc, List.cons_append, List.cons_append, ← hback, ← hbehind]
          exact hcs
        · omega
      · cases h

/-- **Every spelling is read** as the address it spells. -/
theorem Spells.read? {cs rest : List Char} {ip : Ipv6} (h : Spells cs ip) (hrest : Ends rest) :
    read? (cs ++ rest) = some (ip, rest) := by
  cases h with
  | full h =>
    have hlength : ip.groups.length = 8 := ip.length_eq
    simp only [Ipv6.read?, h.readGroups hrest hlength.le, hlength, if_true,
      ofGroups?_eq_some_iff.2 rfl, Option.map_some]
  | @compressed _ front back gs hs zeros _ hfront hback hzeros hip =>
    have hlength : gs.length + zeros + hs.length = 8 := by
      rw [← ip.length_eq, hip, List.length_append, List.length_append, List.length_replicate]
    have hcolons : Ends (':' :: ':' :: (back ++ rest)) := by
      refine ⟨stops_cons.2 (by decide), ?_⟩
      rintro _ ⟨⟩
      exact stops_cons.2 (by decide)
    have hgs : gs.length ≤ 8 := by omega
    have hhs : hs.length ≤ 7 - gs.length := by omega
    have hne : gs.length ≠ 8 := by omega
    have hz : 8 - gs.length - hs.length = zeros := by omega
    simp only [List.append_assoc, List.cons_append, Ipv6.read?, hfront.readGroups hcolons hgs,
      if_neg hne, Bool.false_eq_true, if_false, hback.readGroups hrest hhs, hz]
    rw [← List.append_assoc, ofGroups?_eq_some_iff.2 hip]
    rfl

end Ipv6

end VideoComments

import VideoComments.Proofs.Net.Ip

/-!
# The canonical form of internet addresses

Among the spellings of an IPv6 address one is canonical (`Ipv6.Canonical`): an address that stands
for an IPv4 address ends with it, and otherwise the longest run of two or more zero groups, the
first of several that are equally long, is left out. What is written for an address is its canonical
form and nothing else is (`Ipv6.canonical_iff`), and it spells the address (`Ipv6.spells_toList`).
-/

namespace VideoComments.Ipv6

/-! ## Runs of zero groups -/

/-- The `n` groups from `start` on are zero. -/
structure IsZeroRun (gs : List UInt16) (start n : Nat) : Prop where
  le_length : start + n ≤ gs.length
  zero : ∀ k, start ≤ k → k < start + n → gs[k]? = some 0

/-- No run of zero groups is longer, and none of the same length starts earlier. -/
structure IsFirstLongest (gs : List UInt16) (r : ZeroRun) : Prop where
  isZeroRun : IsZeroRun gs r.start r.length
  longest : ∀ {start n}, IsZeroRun gs start n → n ≤ r.length
  first : ∀ {start}, IsZeroRun gs start r.length → r.start ≤ start

theorem isZeroRun_empty {gs : List UInt16} {start : Nat} (h : start ≤ gs.length) :
    IsZeroRun gs start 0 :=
  ⟨h, fun _ hle hlt => absurd hlt (Nat.not_lt.2 hle)⟩

theorem IsZeroRun.append {gs : List UInt16} {start n : Nat} (h : IsZeroRun gs start n)
    (more : List UInt16) : IsZeroRun (gs ++ more) start n := by
  refine ⟨?_, fun k hle hlt => ?_⟩
  · rw [List.length_append]
    exact h.le_length.trans (Nat.le_add_right _ _)
  · rw [List.getElem?_append_left (hlt.trans_le h.le_length)]
    exact h.zero k hle hlt

/-- A run of zero groups lies before the last group or ends with it. -/
theorem isZeroRun_concat_iff {gs : List UInt16} {g : UInt16} {start n : Nat} :
    IsZeroRun (gs ++ [g]) start n ↔
      IsZeroRun gs start n ∨
        start + n = gs.length + 1 ∧ (n = 0 ∨ g = 0 ∧ IsZeroRun gs start (n - 1)) := by
  have hlength : (gs ++ [g]).length = gs.length + 1 := by simp
  have before : ∀ {m}, IsZeroRun (gs ++ [g]) start n → m ≤ n → start + m ≤ gs.length →
      IsZeroRun gs start m := fun h hm hle => by
    refine ⟨hle, fun k hk hlt => ?_⟩
    have happend : (gs ++ [g])[k]? = gs[k]? := List.getElem?_append_left (by omega)
    rw [← happend]
    exact h.zero k hk (by omega)
  constructor
  · intro h
    have hle := h.le_length
    by_cases hshort : start + n ≤ gs.length
    · exact .inl (before h (Nat.le_refl n) hshort)
    · refine .inr ⟨by omega, ?_⟩
      rcases Nat.eq_zero_or_pos n with hn | hn
      · exact .inl hn
      · have hlast := h.zero gs.length (by omega) (by omega)
        rw [List.getElem?_concat_length] at hlast
        exact .inr ⟨Option.some.inj hlast, before h (Nat.sub_le n 1) (by omega)⟩
  · rintro (h | ⟨hend, rfl | ⟨rfl, h⟩⟩)
    · exact h.append [g]
    · exact isZeroRun_empty (by omega)
    · refine ⟨by omega, fun k hle hlt => ?_⟩
      by_cases hk : k = gs.length
      · rw [hk, List.getElem?_concat_length]
      · exact (h.append [0]).zero k hle (by omega)

theorem IsFirstLongest.unique {gs : List UInt16} {r s : ZeroRun} (hr : IsFirstLongest gs r)
    (hs : IsFirstLongest gs s) : r = s := by
  have hlength : r.length = s.length :=
    Nat.le_antisymm (hs.longest hr.isZeroRun) (hr.longest hs.isZeroRun)
  have hstart : r.start = s.start :=
    Nat.le_antisymm (hr.first (hlength ▸ hs.isZeroRun)) (hs.first (hlength ▸ hr.isZeroRun))
  cases r
  cases s
  simp_all

/-- What is known once some groups have been passed: the longest run among them, and the longest
one at their end. -/
structure Scanned (gs : List UInt16) (current best : ZeroRun) : Prop where
  firstLongest : IsFirstLongest gs best
  isZeroRun : IsZeroRun gs current.start current.length
  reaches : 0 < current.length → current.start + current.length = gs.length
  maximal : ∀ {start n}, IsZeroRun gs start n → start + n = gs.length → n ≤ current.length

theorem scanned_nil : Scanned [] ⟨0, 0⟩ ⟨0, 0⟩ := by
  have empty : IsZeroRun [] 0 0 := isZeroRun_empty (Nat.le_refl 0)
  have longest : ∀ {start n}, IsZeroRun [] start n → n ≤ 0 := fun h =>
    (Nat.le_add_left _ _).trans h.le_length
  exact ⟨⟨empty, longest, fun _ => Nat.zero_le _⟩, empty, fun h => absurd h (Nat.lt_irrefl 0),
    fun h _ => longest h⟩

variable {gs : List UInt16} {current best grown : ZeroRun}

theorem Scanned.isZeroRun_grown (h : Scanned gs current best)
    (hlength : grown.length = current.length + 1)
    (hend : grown.start + grown.length = gs.length + 1) :
    IsZeroRun (gs ++ [0]) grown.start grown.length := by
  refine isZeroRun_concat_iff.2 (.inr ⟨hend, .inr ⟨rfl, ?_⟩⟩)
  rw [hlength, Nat.add_sub_cancel]
  rcases Nat.eq_zero_or_pos current.length with hzero | hpos
  · rw [hzero]
    exact isZeroRun_empty (by omega)
  · have hreaches := h.reaches hpos
    have hstart : grown.start = current.start := by omega
    rw [hstart]
    exact h.isZeroRun

theorem Scanned.maximal_grown (h : Scanned gs current best)
    (hlength : grown.length = current.length + 1) {start n : Nat}
    (hrun : IsZeroRun (gs ++ [0]) start n) (hend : start + n = gs.length + 1) :
    n ≤ grown.length := by
  rcases isZeroRun_concat_iff.1 hrun with hrun | ⟨-, rfl | ⟨-, hrun⟩⟩
  · have hle := hrun.le_length
    omega
  · exact Nat.zero_le _
  · rcases Nat.eq_zero_or_pos n with rfl | hn
    · exact Nat.zero_le _
    · have hle := h.maximal hrun (by omega)
      omega

/-- **A zero group** makes the run at the end longer. -/
theorem Scanned.zero (h : Scanned gs current best) (hlength : grown.length = current.length + 1)
    (hend : grown.start + grown.length = gs.length + 1) :
    Scanned (gs ++ [0]) grown (if best.length < grown.length then grown else best) := by
  have hgs : (gs ++ [0]).length = gs.length + 1 := by simp
  have hgrown := h.isZeroRun_grown hlength hend
  have maximal : ∀ {start n}, IsZeroRun (gs ++ [0]) start n → start + n = gs.length + 1 →
      n ≤ grown.length := h.maximal_grown hlength
  refine ⟨?_, hgrown, fun _ => hend.trans hgs.symm, fun hrun heq => maximal hrun (heq.trans hgs)⟩
  -- Any run either lies among the groups before, where the best one is known, or ends here, where
  -- none is longer than the one that has grown.
  split
  · next hlt =>
    refine ⟨hgrown, fun {start n} hrun => ?_, fun {start} hrun => ?_⟩
    · rcases isZeroRun_concat_iff.1 hrun with hbefore | ⟨heq, -⟩
      · exact (h.firstLongest.longest hbefore).trans hlt.le
      · exact maximal hrun heq
    · rcases isZeroRun_concat_iff.1 hrun with hbefore | ⟨heq, -⟩
      · exact absurd hlt (Nat.not_lt.2 (h.firstLongest.longest hbefore))
      · omega
  · next hge =>
    rw [Nat.not_lt] at hge
    refine ⟨h.firstLongest.isZeroRun.append [0], fun {start n} hrun => ?_,
      fun {start} hrun => ?_⟩
    · rcases isZeroRun_concat_iff.1 hrun with hbefore | ⟨heq, -⟩
      · exact h.firstLongest.longest hbefore
      · exact (maximal hrun heq).trans hge
    · rcases isZeroRun_concat_iff.1 hrun with hbefore | ⟨heq, -⟩
      · exact h.firstLongest.first hbefore
      · have hle := h.firstLongest.isZeroRun.le_length
        omega

/-- **A group that is not zero** ends the run. -/
theorem Scanned.nonzero (h : Scanned gs current best) {g : UInt16} (hg : g ≠ 0) :
    Scanned (gs ++ [g]) ⟨0, 0⟩ best := by
  have hgs : (gs ++ [g]).length = gs.length + 1 := by simp
  have before : ∀ {start n}, IsZeroRun (gs ++ [g]) start n →
      IsZeroRun gs start n ∨ start = gs.length + 1 ∧ n = 0 := fun hrun => by
    rcases isZeroRun_concat_iff.1 hrun with hbefore | ⟨heq, rfl | ⟨hzero, -⟩⟩
    · exact .inl hbefore
    · exact .inr ⟨heq, rfl⟩
    · exact absurd hzero hg
  refine ⟨⟨h.firstLongest.isZeroRun.append [g], fun {start n} hrun => ?_,
    fun {start} hrun => ?_⟩, isZeroRun_empty (Nat.zero_le _),
    fun hpos => absurd hpos (Nat.lt_irrefl 0), fun {start n} hrun heq => ?_⟩
  · rcases before hrun with hbefore | ⟨-, rfl⟩
    · exact h.firstLongest.longest hbefore
    · exact Nat.zero_le _
  · rcases before hrun with hbefore | ⟨rfl, -⟩
    · exact h.firstLongest.first hbefore
    · have hle := h.firstLongest.isZeroRun.le_length
      omega
  · rcases before hrun with hbefore | ⟨-, rfl⟩
    · have hle := hbefore.le_length
      omega
    · exact Nat.le_refl 0

/-- **The run that is found is the first of the longest.** -/
theorem Scanned.isFirstLongest_longestRun (h : Scanned gs current best) (more : List UInt16) :
    IsFirstLongest (gs ++ more) (longestRun gs.length current best more) := by
  induction more generalizing gs current best with
  | nil =>
    rw [List.append_nil]
    exact h.firstLongest
  | cons g more ih =>
    have hgs : (gs ++ [g]).length = gs.length + 1 := by simp
    rw [longestRun, List.append_cons, ← hgs]
    split
    · next hg =>
      subst hg
      refine ih (h.zero ?_ ?_)
      · split <;> simp_all
      · split
        · rfl
        · next hpos =>
          have hreaches := h.reaches (Nat.pos_of_ne_zero hpos)
          simp only
          omega
    · next hg => exact ih (h.nonzero hg)

theorem isFirstLongest_longestRun (gs : List UInt16) :
    IsFirstLongest gs (longestRun 0 ⟨0, 0⟩ ⟨0, 0⟩ gs) :=
  scanned_nil.isFirstLongest_longestRun gs

theorem IsZeroRun.eq_append {gs : List UInt16} {start n : Nat} (h : IsZeroRun gs start n) :
    gs = gs.take start ++ List.replicate n 0 ++ gs.drop (start + n) := by
  have hle := h.le_length
  have hmiddle : (gs.drop start).take n = List.replicate n 0 := by
    refine List.ext_getElem? fun k => ?_
    by_cases hk : k < n
    · rw [List.getElem?_take_of_lt hk, List.getElem?_drop, List.getElem?_replicate_of_lt hk]
      exact h.zero (start + k) (Nat.le_add_right _ _) (by omega)
    · rw [List.getElem?_eq_none (by simp; omega), List.getElem?_eq_none (by simp; omega)]
  rw [← hmiddle, List.append_assoc, ← List.drop_drop, List.take_append_drop,
    List.take_append_drop]

/-! ## The canonical form -/

/-- The address stands for the IPv4 address. -/
def Maps (ip : Ipv6) (v4 : Ipv4) : Prop := ip.groups = [0, 0, 0, 0, 0, 0xFFFF] ++ v4.groups

/-- The characters are the canonical form of the address. -/
inductive Canonical (ip : Ipv6) : List Char → Prop
  | mapped {v4 : Ipv4} (h : ip.Maps v4) : Canonical ip ("::ffff:".toList ++ v4.toList)
  /-- Two colons stand for the first of the longest runs of zero groups. -/
  | compressed {before after : List UInt16} {n : Nat} (hmaps : ∀ v4, ¬ ip.Maps v4) (hn : 1 < n)
      (hip : ip.groups = before ++ List.replicate n 0 ++ after)
      (hfirst : IsFirstLongest ip.groups ⟨before.length, n⟩) :
      Canonical ip (joinGroups before ++ [':', ':'] ++ joinGroups after)
  | plain (hmaps : ∀ v4, ¬ ip.Maps v4)
      (hshort : ∀ {start n}, IsZeroRun ip.groups start n → n ≤ 1) :
      Canonical ip (joinGroups ip.groups)

theorem join_bytes (g : UInt16) : (g / 256).toUInt8.toUInt16 * 256 + g.toUInt8.toUInt16 = g := by
  have hg := UInt16.toNat_lt g
  rw [← UInt16.toNat_inj]
  simp only [UInt16.toUInt16_toUInt8, UInt16.toNat_add, UInt16.toNat_mul, UInt16.toNat_mod,
    UInt16.toNat_div, UInt16.reduceToNat, Nat.reducePow, Nat.mod_add_mod]
  omega

theorem high_byte (a b : UInt8) : ((a.toUInt16 * 256 + b.toUInt16) / 256).toUInt8 = a := by
  have ha := UInt8.toNat_lt a
  have hb := UInt8.toNat_lt b
  rw [← UInt8.toNat_inj]
  simp only [UInt16.toNat_toUInt8, UInt16.toNat_div, UInt16.toNat_add, UInt16.toNat_mul,
    UInt8.toNat_toUInt16, UInt16.reduceToNat, Nat.reducePow, Nat.mod_add_mod]
  omega

theorem low_byte (a b : UInt8) : (a.toUInt16 * 256 + b.toUInt16).toUInt8 = b := by
  rw [← UInt8.toNat_inj]
  simp

/-- Two groups and four bytes are the same thing. -/
theorem groups_eq_iff {v4 : Ipv4} {g h : UInt16} :
    v4.groups = [g, h] ↔ v4 = Ipv4.ofGroups g h := by
  constructor
  · intro hv
    simp only [Ipv4.groups, List.cons.injEq, and_true] at hv
    rw [← hv.1, ← hv.2]
    simp only [Ipv4.ofGroups, high_byte, low_byte]
  · rintro rfl
    simp only [Ipv4.groups, Ipv4.ofGroups, join_bytes]

theorem mapped?_eq_some_iff {ip : Ipv6} {v4 : Ipv4} : ip.mapped? = some v4 ↔ ip.Maps v4 := by
  rw [mapped?, Maps]
  split
  · next g h hip =>
    rw [hip, Option.some.injEq]
    constructor
    · rintro rfl
      rw [groups_eq_iff.2 rfl]
      rfl
    · intro heq
      have hv4 : [0, 0, 0, 0, 0, 0xFFFF] ++ v4.groups = [0, 0, 0, 0, 0, 0xFFFF] ++ [g, h] :=
        heq.symm
      exact (groups_eq_iff.1 (List.append_cancel_left hv4)).symm
  · next hip => exact iff_of_false (by simp) fun h => hip _ _ h

theorem mapped?_eq_none {ip : Ipv6} (h : ∀ v4, ¬ ip.Maps v4) : ip.mapped? = none :=
  Option.eq_none_iff_forall_ne_some.2 fun v4 hv4 => h v4 (mapped?_eq_some_iff.1 hv4)

/-- **What is written is the canonical form**, and nothing else is. -/
theorem canonical_iff {ip : Ipv6} {cs : List Char} : ip.Canonical cs ↔ cs = ip.toList := by
  have hrun := isFirstLongest_longestRun ip.groups
  constructor
  · intro h
    rw [toList]
    cases h with
    | mapped h => rw [mapped?_eq_some_iff.2 h]
    | compressed hmaps hn hip hfirst =>
      rw [mapped?_eq_none hmaps, ← hfirst.unique hrun]
      simp only [if_pos hn, hip]
      simp
    | plain hmaps hshort =>
      simp only [mapped?_eq_none hmaps, if_neg (Nat.not_lt.2 (hshort hrun.isZeroRun))]
  · rintro rfl
    rw [toList]
    split
    · next v4 hv4 => exact .mapped (mapped?_eq_some_iff.1 hv4)
    · next hmapped =>
      have hmaps : ∀ v4, ¬ ip.Maps v4 := fun v4 h => by
        rw [mapped?_eq_some_iff.2 h] at hmapped
        cases hmapped
      simp only
      split
      · next hn =>
        have hstart : (ip.groups.take _).length = _ :=
          List.length_take_of_le ((Nat.le_add_right _ _).trans hrun.isZeroRun.le_length)
        refine .compressed hmaps hn hrun.isZeroRun.eq_append ?_
        rw [hstart]
        exact hrun
      · next hn => exact .plain hmaps fun h => (hrun.longest h).trans (Nat.not_lt.1 hn)

theorem group_digits (g : UInt16) : Group (Hex.digits g.toNat) g := by
  obtain ⟨ds, hds, hg⟩ := Hex.forall₂_digits g.toNat
  exact ⟨List.length_pos_iff.2 (Hex.digits_ne_nil _),
    Hex.length_digits_le (by decide) (UInt16.toNat_lt g), ds, hds, hg⟩

theorem joinGroups_cons (g : UInt16) (gs : List UInt16) :
    joinGroups (g :: gs) =
      Hex.digits g.toNat ++ gs.flatMap fun g => ':' :: Hex.digits g.toNat := by
  induction gs generalizing g with
  | nil => simp [joinGroups]
  | cons h gs ih =>
    rw [List.flatMap_cons, List.cons_append, ← ih]
    rfl

theorem sequence_flatMap (gs : List UInt16) :
    Sequence false false (gs.flatMap fun g => ':' :: Hex.digits g.toNat) gs := by
  induction gs with
  | nil => exact .nil
  | cons g gs ih => exact .cons (group_digits g) ih

theorem sequence_joinGroups (gs : List UInt16) : Sequence true false (joinGroups gs) gs := by
  cases gs with
  | nil => exact .nil
  | cons g gs =>
    rw [joinGroups_cons]
    exact .cons (group_digits g) (sequence_flatMap gs)

/-- **The canonical form spells the address.** -/
theorem Canonical.spells {ip : Ipv6} {cs : List Char} (h : ip.Canonical cs) : Spells cs ip := by
  cases h with
  | mapped h =>
    have hones : Group ['f', 'f', 'f', 'f'] 0xFFFF :=
      ⟨by decide, by decide, [15, 15, 15, 15], by decide, by decide⟩
    have hip : ip.groups = [] ++ List.replicate 5 0 ++ 0xFFFF :: _ := h
    exact .compressed .nil (.cons hones (.ipv4 _)) (by decide) hip
  | compressed _ hn hip _ =>
    rw [List.append_assoc]
    exact .compressed (sequence_joinGroups _) (sequence_joinGroups _) (by omega) hip
  | plain _ _ => exact .full (sequence_joinGroups _)

end VideoComments.Ipv6

import VideoComments.Net.SocketAddress
import VideoComments.Proofs.Net.Canonical

/-!
# The grammar of socket addresses

`SocketAddress.Spells` says which texts spell an address: an IPv4 address or an IPv6 address in
brackets, a scope behind the latter and a port, the numbers with any zeros in front. Exactly these
are read (`SocketAddress.ofList?_eq_some_iff`). What is written is the canonical spelling and
nothing else is (`SocketAddress.canonical_iff`), so every address is read back
(`SocketAddress.ofText?_text`).
-/

namespace VideoComments.SocketAddress

open Text (Stops stops_cons stops_nil takeWhile_append dropWhile_append stops_dropWhile)
open Decimal (Numeral)

/-! ## Spellings -/

/-- The characters between an IPv6 address and the bracket behind it: a scope, if it is not zero. -/
inductive Scope : List Char → UInt32 → Prop
  | absent : Scope [] 0
  | given {ds : List Char} {scope : UInt32} (h : Numeral ds scope.toNat) : Scope ('%' :: ds) scope

/-- The characters spell the address. -/
inductive Spells : List Char → SocketAddress → Prop
  | v4 {ip : Ipv4} {port : UInt16} {ds : List Char} (hport : Numeral ds port.toNat) :
      Spells (ip.toList ++ ':' :: ds) (.v4 ip port)
  | v6 {ip : Ipv6} {scope : UInt32} {port : UInt16} {cs ss ds : List Char} (hip : ip.Spells cs)
      (hscope : Scope ss scope) (hport : Numeral ds port.toNat) :
      Spells ('[' :: (cs ++ ss ++ ']' :: ':' :: ds)) (.v6 ip scope port)

/-- The characters are the canonical spelling of the address: no zeros in front of a number, and no
scope that is zero. -/
inductive Canonical : SocketAddress → List Char → Prop
  | v4 (ip : Ipv4) (port : UInt16) :
      Canonical (.v4 ip port) (ip.toList ++ ':' :: Decimal.digits port.toNat)
  | bare {ip : Ipv6} {cs : List Char} (port : UInt16) (hip : ip.Canonical cs) :
      Canonical (.v6 ip 0 port) ('[' :: (cs ++ ']' :: ':' :: Decimal.digits port.toNat))
  | zoned {ip : Ipv6} {cs : List Char} {scope : UInt32} (port : UInt16) (hip : ip.Canonical cs)
      (hscope : scope ≠ 0) :
      Canonical (.v6 ip scope port) ('[' :: (cs ++ '%' :: Decimal.digits scope.toNat ++
        ']' :: ':' :: Decimal.digits port.toNat))

/-! ## Numbers -/

theorem below?_eq_some_iff {bound n : Nat} {cs rest : List Char} :
    below? bound cs = some (n, rest) ↔
      ∃ ds, cs = ds ++ rest ∧ Numeral ds n ∧ n < bound ∧ Stops Decimal.isDigit rest := by
  constructor
  · intro h
    simp only [below?] at h
    split at h
    · next m hm =>
      split at h
      · next hlt =>
        cases h
        exact ⟨_, List.takeWhile_append_dropWhile.symm, Decimal.natural?_eq_some_iff.1 hm, hlt,
          stops_dropWhile _ _⟩
      · cases h
    · cases h
  · rintro ⟨ds, rfl, hds, hlt, hrest⟩
    simp only [below?, takeWhile_append hds.isDigit hrest, dropWhile_append hds.isDigit hrest,
      Decimal.natural?_eq_some_iff.2 hds, if_pos hlt]

theorem port?_eq_some_iff {cs rest : List Char} {port : UInt16} :
    port? cs = some (port, rest) ↔
      ∃ ds, cs = ':' :: (ds ++ rest) ∧ Numeral ds port.toNat ∧ Stops Decimal.isDigit rest := by
  constructor
  · intro h
    unfold port? at h
    split at h
    · obtain ⟨⟨n, rest⟩, hn, hr⟩ := Option.map_eq_some_iff.1 h
      cases hr
      obtain ⟨ds, rfl, hds, hlt, hrest⟩ := below?_eq_some_iff.1 hn
      rw [UInt16.toNat_ofNat_of_lt' hlt]
      exact ⟨ds, rfl, hds, hrest⟩
    · cases h
  · rintro ⟨ds, rfl, hds, hrest⟩
    rw [port?, below?_eq_some_iff.2 ⟨ds, rfl, hds, UInt16.toNat_lt port, hrest⟩, Option.map_some,
      UInt16.ofNat_toNat]

theorem Scope.of_scope? {cs rest : List Char} {scope : UInt32}
    (h : scope? cs = some (scope, rest)) : ∃ ss, cs = ss ++ rest ∧ Scope ss scope := by
  unfold scope? at h
  split at h
  · obtain ⟨⟨n, rest⟩, hn, hr⟩ := Option.map_eq_some_iff.1 h
    cases hr
    obtain ⟨ds, rfl, hds, hlt, -⟩ := below?_eq_some_iff.1 hn
    rw [← UInt32.toNat_ofNat_of_lt' hlt] at hds
    exact ⟨_, rfl, .given hds⟩
  · cases h
    exact ⟨[], rfl, .absent⟩

theorem Scope.scope? {ss : List Char} {scope : UInt32} (h : Scope ss scope) (rest : List Char) :
    scope? (ss ++ ']' :: rest) = some (scope, ']' :: rest) := by
  cases h with
  | absent =>
    rw [List.nil_append, SocketAddress.scope?]
    rintro cs ⟨⟩
  | given h =>
    have hstops : Stops Decimal.isDigit (']' :: rest) := stops_cons.2 (by decide)
    rw [List.cons_append, SocketAddress.scope?,
      below?_eq_some_iff.2 ⟨_, rfl, h, UInt32.toNat_lt scope, hstops⟩, Option.map_some,
      UInt32.ofNat_toNat]

/-- What stands behind an IPv6 address does not go on with it. -/
theorem Scope.ends {ss : List Char} {scope : UInt32} (h : Scope ss scope) (rest : List Char) :
    Ipv6.Ends (ss ++ ']' :: rest) := by
  cases h with
  | absent => exact ⟨stops_cons.2 (by decide), fun _ h => by cases h⟩
  | given => exact ⟨stops_cons.2 (by decide), fun _ h => by cases h⟩

/-! ## Reading -/

theorem Spells.of_readV4? {cs rest : List Char} {a : SocketAddress}
    (h : readV4? cs = some (a, rest)) : ∃ xs, cs = xs ++ rest ∧ Spells xs a := by
  simp only [readV4?, Option.bind_eq_bind, Option.bind_eq_some_iff, Prod.exists] at h
  obtain ⟨ip, behind, hip, port, _, hport, h⟩ := h
  cases h
  obtain ⟨rfl, -⟩ := Ipv4.read?_eq_some_iff.1 hip
  obtain ⟨ds, rfl, hds, -⟩ := port?_eq_some_iff.1 hport
  exact ⟨_, by rw [List.append_assoc, List.cons_append], .v4 hds⟩

theorem Spells.of_readV6? {cs rest : List Char} {a : SocketAddress}
    (h : readV6? cs = some (a, rest)) : ∃ xs, cs = xs ++ rest ∧ Spells xs a := by
  unfold readV6? at h
  split at h
  · simp only [Option.bind_eq_bind, Option.bind_eq_some_iff, Prod.exists] at h
    obtain ⟨ip, _, hip, scope, behind, hscope, h⟩ := h
    split at h
    · obtain ⟨⟨port, _⟩, hport, h⟩ := Option.bind_eq_some_iff.1 h
      cases h
      obtain ⟨xs, rfl, hxs⟩ := Ipv6.Spells.of_read? hip
      obtain ⟨ss, rfl, hss⟩ := Scope.of_scope? hscope
      obtain ⟨ds, rfl, hds, -⟩ := port?_eq_some_iff.1 hport
      exact ⟨_, by simp, .v6 hxs hss hds⟩
    · cases h
  · cases h

theorem readV4?_bracket (cs : List Char) : readV4? ('[' :: cs) = none := by
  have hnone : Ipv4.read? ('[' :: cs) = none :=
    Ipv6.ipv4_eq_none (List.forall_mem_nil _) (stops_cons.2 (by decide))
  rw [readV4?, hnone]
  rfl

/-- Every spelling is read as far as it goes. -/
theorem Spells.read? {cs : List Char} {a : SocketAddress} (h : Spells cs a) :
    (readV4? cs <|> readV6? cs) = some (a, []) := by
  cases h with
  | @v4 ip port ds hport =>
    have hport := port?_eq_some_iff.2 ⟨ds, by rw [List.append_nil], hport, stops_nil _⟩
    have hcolon : Stops Decimal.isDigit (':' :: ds) := stops_cons.2 (by decide)
    have hip : Ipv4.read? (ip.toList ++ ':' :: ds) = some (ip, ':' :: ds) :=
      Ipv4.read?_eq_some_iff.2 ⟨rfl, hcolon⟩
    have hread : readV4? (ip.toList ++ ':' :: ds) = some (.v4 ip port, []) := by
      simp only [readV4?, Option.bind_eq_bind, Option.bind_eq_some_iff, Prod.exists]
      exact ⟨ip, _, hip, port, _, hport, rfl⟩
    rw [hread]
    rfl
  | @v6 ip scope port cs ss ds hip hscope hport =>
    have hport := port?_eq_some_iff.2 ⟨ds, by rw [List.append_nil], hport, stops_nil _⟩
    have hip := hip.read? (hscope.ends (':' :: ds))
    have hscope := hscope.scope? (':' :: ds)
    have hread : readV6? ('[' :: (cs ++ ss ++ ']' :: ':' :: ds)) =
        some (.v6 ip scope port, []) := by
      simp only [readV6?, Option.bind_eq_bind, Option.bind_eq_some_iff, Prod.exists]
      rw [List.append_assoc]
      refine ⟨ip, _, hip, scope, _, hscope, ?_⟩
      simp only [hport, Option.bind_some]
      rfl
    rw [readV4?_bracket, hread]
    rfl

/-- **Exactly the spellings of an address are read.** -/
theorem ofList?_eq_some_iff {cs : List Char} {a : SocketAddress} :
    ofList? cs = some a ↔ Spells cs a := by
  constructor
  · intro h
    unfold ofList? at h
    split at h
    · next a' hread =>
      cases h
      obtain ⟨xs, rfl, hxs⟩ : ∃ xs, cs = xs ++ [] ∧ Spells xs a := by
        rcases (Option.orElse_eq_some _ _ _).1 hread with hread | ⟨-, hread⟩
        · exact Spells.of_readV4? hread
        · exact Spells.of_readV6? hread
      rwa [List.append_nil]
    · cases h
  · intro h
    rw [ofList?, h.read?]

/-! ## Writing -/

/-- **What is written is the canonical spelling**, and nothing else is. -/
theorem canonical_iff {a : SocketAddress} {cs : List Char} : Canonical a cs ↔ cs = a.toList := by
  constructor
  · intro h
    cases h with
    | v4 => rfl
    | bare port hip => rw [Ipv6.canonical_iff.1 hip]; simp [toList]
    | zoned port hip hscope => rw [Ipv6.canonical_iff.1 hip]; simp [toList, hscope]
  · rintro rfl
    cases a with
    | v4 ip port => exact .v4 ip port
    | v6 ip scope port =>
      have hip : ip.Canonical ip.toList := Ipv6.canonical_iff.2 rfl
      rw [toList]
      split
      · next hscope =>
        subst hscope
        rw [List.append_nil]
        exact .bare port hip
      · next hscope => exact .zoned port hip hscope

theorem Canonical.spells {a : SocketAddress} {cs : List Char} (h : Canonical a cs) :
    Spells cs a := by
  cases h with
  | v4 ip port => exact .v4 (Decimal.numeral_digits _)
  | @bare ip cs port hip =>
    rw [← List.append_nil cs]
    exact .v6 hip.spells .absent (Decimal.numeral_digits _)
  | zoned port hip _ =>
    exact .v6 hip.spells (.given (Decimal.numeral_digits _)) (Decimal.numeral_digits _)

/-- **Every address is read back** from what is written for it. -/
theorem ofText?_text (a : SocketAddress) : ofText? a.text = some a := by
  rw [ofText?, text, String.toList_ofList, ofList?_eq_some_iff]
  exact (canonical_iff.2 rfl).spells

end VideoComments.SocketAddress

import Mathlib.Data.Nat.PSub
import VideoComments.Proofs.Text.Decimal
import VideoComments.Proofs.Uuid.Groups

/-!
# The reason given for a refusal is a true one

A text that spells no identifier is read a second time, for a reason to report. `Genuine cs fault`
says that the fault is really there in `cs`: that the character stands where it is said to stand,
that there are as many groups as reported, or that a group is too long or too short. Whatever the
first reading refuses, the second one finds a genuine fault in (`genuine_diagnose`).

The second reading subtracts where groups start from where they end, counting on what it has seen
before. `diagnose?` is the same reading with a subtraction that has no result below zero, and it
always has one (`diagnose?_eq_some`).
-/

namespace VideoComments.Uuid

/-! ## What stands around the groups -/

/-- The text is `body` in braces, or after the registered name in any letter case. -/
inductive Wraps : List Char → List Char → Prop
  | braced (body : List Char) : Wraps ('{' :: body ++ ['}']) body
  | registered {name : List Char} (body : List Char)
      (hname : List.Forall₂ (fun c l => c = l ∨ c = l.toUpper) name namespaceName) :
      Wraps (name ++ body) body

/-- The registered name is nine bytes long and holds no hyphen. -/
theorem name_spec {name letters : List Char}
    (h : List.Forall₂ (fun c l => c = l ∨ c = l.toUpper) name letters)
    (hletters : ∀ l ∈ letters, l ∈ namespaceName) :
    String.utf8Len name = letters.length ∧ name.count '-' = 0 := by
  have hname : ∀ l ∈ namespaceName, ∀ c, c = l ∨ c = l.toUpper → c.utf8Size = 1 ∧ c ≠ '-' := by
    have both : namespaceName.all (fun l => l.utf8Size = 1 ∧ l ≠ '-' ∧
        l.toUpper.utf8Size = 1 ∧ l.toUpper ≠ '-') = true := by decide
    intro l hl c hc
    obtain ⟨hsize, hne, hsize', hne'⟩ := of_decide_eq_true (List.all_eq_true.1 both l hl)
    rcases hc with rfl | rfl
    · exact ⟨hsize, hne⟩
    · exact ⟨hsize', hne'⟩
  induction h with
  | nil => exact ⟨rfl, rfl⟩
  | cons hc _ ih =>
    rw [List.forall_mem_cons] at hletters
    obtain ⟨hlen, hcount⟩ := ih hletters.2
    obtain ⟨hsize, hne⟩ := hname _ hletters.1 _ hc
    refine ⟨?_, ?_⟩
    · rw [String.utf8Len_cons, hlen, hsize, List.length_cons]
    · rw [List.count_cons_of_ne hne, hcount]

theorem unbraced?_eq_none_of_registered {name body : List Char}
    (hname : List.Forall₂ (fun c l => c = l ∨ c = l.toUpper) name namespaceName) :
    unbraced? (name ++ body) = none := by
  cases hname with
  | cons hc _ =>
    refine Option.eq_none_iff_forall_ne_some.2 fun inner hinner => ?_
    have hcons := unbraced?_eq_some_iff.1 hinner
    rw [List.cons_append, List.cons_append, List.cons.injEq] at hcons
    rcases hc with hc | hc <;> exact absurd (hcons.1.symm.trans hc) (by decide)

theorem wraps_of_unbraced? {cs body : List Char} (h : unbraced? cs = some body) :
    Wraps cs body := by
  rw [unbraced?_eq_some_iff.1 h]
  exact .braced body

theorem wraps_of_unregistered? {cs body : List Char} (h : unregistered? cs = some body) :
    Wraps cs body := by
  obtain ⟨name, rfl, hname⟩ := unregistered?_eq_some_iff.1 h
  exact .registered body hname

/-- **What is around the groups is recognised**: braces, or else the registered name. -/
theorem Wraps.read {cs body : List Char} (h : Wraps cs body) :
    ∃ front back, cs = front ++ body ++ back ∧
      (unbraced? cs = some body ∧ String.utf8Len front = 1 ∧ String.utf8Len back = 1 ∨
        unbraced? cs = none ∧ unregistered? cs = some body ∧
          String.utf8Len front = namespaceName.length ∧ String.utf8Len back = 0) := by
  cases h with
  | braced => exact ⟨['{'], ['}'], rfl, .inl ⟨unbraced?_eq_some_iff.2 rfl, rfl, rfl⟩⟩
  | @registered name _ hname =>
    refine ⟨name, [], (List.append_nil _).symm, .inr ⟨unbraced?_eq_none_of_registered hname,
      unregistered?_eq_some_iff.2 ⟨_, rfl, hname⟩, ?_, rfl⟩⟩
    exact (name_spec hname fun _ hl => hl).1

theorem Wraps.count {cs body : List Char} (h : Wraps cs body) :
    body.count '-' = cs.count '-' := by
  cases h with
  | braced => simp
  | registered _ hname => rw [List.count_append, (name_spec hname fun _ hl => hl).2, Nat.zero_add]

theorem Wraps.utf8Len_le {cs body : List Char} (h : Wraps cs body) :
    String.utf8Len body ≤ String.utf8Len cs := by
  obtain ⟨front, back, rfl, -⟩ := h.read
  exact String.utf8Len_le_of_infix ⟨front, back, rfl⟩

/-! ## Genuine faults -/

/-- What positions are counted in: the 36 bytes that the text has in braces or after the registered
name, and otherwise the text itself. -/
inductive Subject (cs : List Char) : List Char → Prop
  | inner {body : List Char} (h : Wraps cs body) (hsize : String.utf8Len body = 36) :
      Subject cs body
  | whole (h : ∀ body, Wraps cs body → String.utf8Len body ≠ 36) : Subject cs cs

/-- Where the groups of a text are looked for: in the text, or inside what stands around them. -/
def Body (cs body : List Char) : Prop := body = cs ∨ Wraps cs body

/-- The fault is really there in the text. -/
inductive Genuine (cs : List Char) : Fault → Prop
  /-- The character stands behind as many bytes as its index says. -/
  | character {subject before after : List Char} {c : Char} (hsubject : Subject cs subject)
      (h : subject = before ++ c :: after) (hdigit : Hex.isDigit c = false) (hhyphen : c ≠ '-') :
      Genuine cs (.character c (String.utf8Len before))
  /-- The length is that of the text, which is none that a spelling could have. -/
  | length (h : cs = [] ∨ 45 < String.utf8Len cs ∨
      (∀ c ∈ cs, Hex.isDigit c = true) ∧ String.utf8Len cs ≠ 32) :
      Genuine cs (.length (String.utf8Len cs))
  | groupCount (h : cs.count '-' + 1 ≠ 5) : Genuine cs (.groupCount (cs.count '-' + 1))
  /-- A group before the last hyphen is the first of a wrong length, and has the one reported. -/
  | groupLength {body : List Char} {i expected found : Nat} (hbody : Body cs body)
      (hcount : cs.count '-' = 4) (h : Uneven [8, 4, 4, 4] (body.splitOn '-') i expected found) :
      Genuine cs (.groupLength i expected found)
  /-- The last group alone is of a wrong length. What is reported is the length of the text without
  four groups and their hyphens, which is not the right one either. -/
  | lastLength {body : List Char} {last found : Nat} (hbody : Body cs body)
      (h : Uneven [8, 4, 4, 4, 12] (body.splitOn '-') 4 12 last)
      (hsize : String.utf8Len cs = 24 + found) (hfound : found ≠ 12) :
      Genuine cs (.groupLength 4 12 found)

/-- A length that is reported is not the one expected. -/
theorem Genuine.ne {cs : List Char} {group expected found : Nat}
    (h : Genuine cs (.groupLength group expected found)) : found ≠ expected := by
  cases h with
  | groupLength _ _ h => exact h.ne
  | lastLength _ _ _ hfound => exact hfound

/-! ## What is not spelled has a genuine fault -/

theorem Hyphened.splitOn {cs : List Char} (h : Hyphened cs) :
    ∀ g ∈ cs.splitOn '-', ∀ c ∈ g, Hex.isDigit c = true := by
  induction cs with
  | nil => simp
  | cons c cs ih =>
    rw [Hyphened, List.forall_mem_cons] at h
    have hgroups := ih h.2
    rw [List.splitOn_cons_eq_if_modifyHead]
    split
    · exact List.forall_mem_cons.2 ⟨List.forall_mem_nil _, hgroups⟩
    · next hc =>
      have hdigit := h.1.resolve_right fun heq => hc (beq_iff_eq.2 heq)
      obtain ⟨g, groups, hsplit⟩ := List.exists_cons_of_ne_nil (List.splitOn_ne_nil '-' cs)
      rw [hsplit, List.forall_mem_cons] at hgroups
      rw [hsplit, List.modifyHead_cons, List.forall_mem_cons, List.forall_mem_cons]
      exact ⟨⟨hdigit, hgroups.1⟩, hgroups.2⟩

/-- Groups of digits with hyphens between them are groups of their lengths. -/
theorem exists_groups {groups : List (List Char)} (hne : groups ≠ [])
    (h : ∀ g ∈ groups, ∀ c ∈ g, Hex.isDigit c = true) :
    ∃ ds, Groups (groups.map List.length) (['-'].intercalate groups) ds := by
  induction groups with
  | nil => exact absurd rfl hne
  | cons g groups ih =>
    rw [List.forall_mem_cons] at h
    have hg := Hex.forall₂_filterMap_digit? h.1
    cases groups with
    | nil =>
      rw [List.intercalate_singleton]
      exact ⟨_, .last rfl hg⟩
    | cons g' groups =>
      obtain ⟨ds, hds⟩ := ih (List.cons_ne_nil _ _) h.2
      rw [List.intercalate_cons_cons, List.append_assoc, List.singleton_append]
      exact ⟨_, .cons rfl hg hds⟩

theorem Hyphened.exists_groups {cs : List Char} (h : Hyphened cs) :
    ∃ ds, Groups ((cs.splitOn '-').map List.length) cs ds := by
  have hgroups := Uuid.exists_groups (List.splitOn_ne_nil '-' cs) h.splitOn
  rwa [List.intercalate_splitOn] at hgroups

theorem Body.spells {cs body : List Char} {ds : List Nat} (h : Body cs body)
    (hgroups : Groups [8, 4, 4, 4, 12] body ds) : Spells cs ds := by
  rcases h with rfl | h
  · exact .hyphenated hgroups
  · cases h with
    | braced => exact .braced hgroups
    | registered _ hname => exact .registered hname hgroups

theorem Body.count {cs body : List Char} (h : Body cs body) : body.count '-' = cs.count '-' := by
  rcases h with rfl | h
  · rfl
  · exact h.count

section

variable {cs body : List Char} {size start : Nat} {grouped : Bool} {fault : Fault}

/-- Four groups of the right lengths and their hyphens take 24 bytes. -/
theorem Hyphened.utf8Len_eq (hhyphened : Hyphened body) {last : Nat}
    (h : (body.splitOn '-').map List.length = [8, 4, 4, 4] ++ [last]) :
    String.utf8Len body = 24 + last := by
  obtain ⟨ds, hds⟩ := hhyphened.exists_groups
  have hlength := hds.length.1
  rw [hhyphened.utf8Len]
  simp only [h, List.cons_append, List.nil_append, List.sum_cons, List.sum_nil, List.length_cons,
    List.length_nil] at hlength
  omega

/-- A text that spells nothing has no last group of length 12 after four of the right lengths. -/
theorem last_ne_of_not_spells (hnot : ∀ ds, ¬ Spells cs ds) (hbody : Body cs body)
    (hhyphened : Hyphened body) {last : Nat}
    (h : (body.splitOn '-').map List.length = [8, 4, 4, 4] ++ [last]) : last ≠ 12 := by
  rintro rfl
  obtain ⟨ds, hds⟩ := hhyphened.exists_groups
  rw [h] at hds
  exact hnot ds (hbody.spells hds)

/-- What is found in the groups of a text is a fault of the text. -/
theorem Inspected.genuine (h : Inspected size start grouped body fault)
    (hnot : ∀ ds, ¬ Spells cs ds) (hbody : Body cs body)
    (hsubject : ∃ front back, Subject cs (front ++ body ++ back) ∧ String.utf8Len front = start)
    (hgrouped : grouped = false → body = cs ∧ size = String.utf8Len cs)
    (hsize : String.utf8Len body = 36 ∨
      size = String.utf8Len cs ∧ String.utf8Len body ≤ size ∧ size ≠ 36) :
    Genuine cs fault := by
  cases h with
  | @character before after c h hdigit hhyphen =>
    obtain ⟨front, back, hsubject, rfl⟩ := hsubject
    have hsplit : front ++ body ++ back = front ++ before ++ c :: (after ++ back) := by
      rw [h]
      simp only [List.append_assoc, List.cons_append]
    rw [← String.utf8Len_append]
    exact .character hsubject hsplit hdigit hhyphen
  | length hfalse h =>
    obtain ⟨rfl, rfl⟩ := hgrouped hfalse
    refine .length (.inr (.inr ⟨h, fun h32 => ?_⟩))
    rw [Hyphened.utf8Len fun c hc => .inl (h c hc)] at h32
    exact hnot _ (.plain (.last h32 (Hex.forall₂_filterMap_digit? h)))
  | groupCount h =>
    rw [hbody.count] at h ⊢
    exact .groupCount fun hcount => h (Nat.succ.inj hcount)
  | groupLength hcount h => exact .groupLength hbody (hbody.count ▸ hcount) h
  | lastLength hhyphened h =>
    have hlength := hhyphened.utf8Len_eq h
    have hlast := last_ne_of_not_spells hnot hbody hhyphened h
    have huneven := Uneven.last h hlast
    rcases hsize with hsize | ⟨rfl, hle, hne⟩
    · omega
    · exact .lastLength hbody huneven (by omega) (by omega)

end

/-- What is around 36 bytes is two bytes or nine, and is recognised by that. -/
theorem core?_of_wraps {cs body : List Char} (h : Wraps cs body)
    (hsize : String.utf8Len body = 36) : core? cs = some body ∧ String.utf8Len cs ≠ 36 := by
  obtain ⟨front, back, hcs, ⟨hbody, hfront, hback⟩ | ⟨-, hbody, hfront, hback⟩⟩ := h.read
  · have hlen : String.utf8Len cs = 38 := by
      rw [hcs, String.utf8Len_append, String.utf8Len_append, hfront, hsize, hback]
    rw [core?, Utf8.length_eq, hlen]
    exact ⟨hbody, by decide⟩
  · have hlen : String.utf8Len cs = 45 := by
      rw [hcs, String.utf8Len_append, String.utf8Len_append, hfront, hsize, hback]
      rfl
    rw [core?, Utf8.length_eq, hlen]
    exact ⟨hbody, by decide⟩

theorem body_of_core? {cs core : List Char} (h : core? cs = some core) :
    Body cs core ∧ String.utf8Len core = 36 := by
  rw [core?, Utf8.length_eq] at h
  split at h
  · next hlen =>
    obtain rfl := Option.some.inj h
    exact ⟨.inl rfl, hlen⟩
  · next hlen =>
    have hwraps := wraps_of_unbraced? h
    refine ⟨.inr hwraps, ?_⟩
    rw [unbraced?_eq_some_iff.1 h, String.utf8Len_append, String.utf8Len_cons] at hlen
    exact Nat.add_right_cancel (m := 2) hlen
  · next hlen =>
    refine ⟨.inr (wraps_of_unregistered? h), ?_⟩
    obtain ⟨name, rfl, hname⟩ := unregistered?_eq_some_iff.1 h
    rw [String.utf8Len_append, (name_spec hname fun _ hl => hl).1] at hlen
    exact Nat.add_left_cancel (n := 9) hlen
  · cases h

/-- Positions in the core are positions in what they are counted in. -/
theorem subject_of_core? {cs core : List Char} (h : core? cs = some core) : Subject cs core := by
  obtain ⟨rfl | hwraps, hsize⟩ := body_of_core? h
  · exact .whole fun body hbody hbodySize => (core?_of_wraps hbody hbodySize).2 hsize
  · exact .inner hwraps hsize

theorem subject_of_core?_eq_none {cs : List Char} (h : core? cs = none) :
    Subject cs cs ∧ String.utf8Len cs ≠ 36 := by
  refine ⟨.whole fun body hbody hsize => ?_, fun hsize => ?_⟩
  · rw [(core?_of_wraps hbody hsize).1] at h
    cases h
  · simp only [core?, Utf8.length_eq, hsize] at h
    cases h

theorem not_spells_of_parse? {cs : List Char} (h : parse? cs = none) (ds : List Nat) :
    ¬ Spells cs ds := by
  intro hspells
  rw [parse?, spelled?_eq_some_iff.2 hspells] at h
  cases h

/-- **Whatever is refused is refused for a genuine fault.** -/
theorem genuine_diagnose {cs : List Char} (h : parse? cs = none) : Genuine cs (diagnose cs) := by
  have hnot := not_spells_of_parse? h
  rw [diagnose]
  cases hcore : core? cs with
  | some core =>
    obtain ⟨hbody, hsize⟩ := body_of_core? hcore
    refine (inspected _ 0 true core).genuine hnot hbody ⟨[], [], ?_, rfl⟩ (fun h => by cases h)
      (.inl hsize)
    rw [List.nil_append, List.append_nil]
    exact subject_of_core? hcore
  | none =>
    obtain ⟨hsubject, hsize⟩ := subject_of_core?_eq_none hcore
    -- Inside braces or after the registered name, positions are counted from the front.
    have inside : ∀ {body : List Char} {start : Nat}, Wraps cs body →
        (∃ front back, cs = front ++ body ++ back ∧ String.utf8Len front = start) →
        Genuine cs (inspect (String.utf8Len cs) start true body) := by
      rintro body start hwraps ⟨front, back, hcs, hfront⟩
      exact (inspected _ start true body).genuine hnot (.inr hwraps)
        ⟨front, back, hcs ▸ hsubject, hfront⟩ (fun h => by cases h)
        (.inr ⟨rfl, hwraps.utf8Len_le, hsize⟩)
    simp only [Utf8.length_eq]
    split
    · next hlen =>
      refine .length ?_
      rcases hlen with hlen | hlen
      · exact .inl (String.utf8Len_eq_zero.1 hlen)
      · exact .inr (.inl hlen)
    · cases hbraced : unbraced? cs with
      | some body =>
        have hcs := unbraced?_eq_some_iff.1 hbraced
        exact inside (wraps_of_unbraced? hbraced) ⟨['{'], ['}'], hcs, rfl⟩
      | none =>
        cases hname : unregistered? cs with
        | some body =>
          have hwraps := wraps_of_unregistered? hname
          obtain ⟨name, hcs, hletters⟩ := unregistered?_eq_some_iff.1 hname
          exact inside hwraps ⟨name, [], by rw [List.append_nil, hcs],
            (name_spec hletters fun _ hl => hl).1⟩
        | none =>
          refine (inspected _ 0 false cs).genuine hnot (.inl rfl) ⟨[], [], ?_, rfl⟩
            (fun _ => ⟨rfl, rfl⟩) (.inr ⟨rfl, Nat.le_refl _, hsize⟩)
          rwa [List.nil_append, List.append_nil]

/-! ## Nothing is subtracted from less -/

/-- `misplaced?` with subtractions that have no result below zero. -/
def measure? (group : Nat) : List Nat → List (Nat × Nat) → Option (Option Fault)
  | p :: ps, (stop, start) :: ends =>
    if p = stop then measure? (group + 1) ps ends
    else do return some (.groupLength group (← stop.psub start) (← p.psub start))
  | _, _ => some none

/-- `inspect` with subtractions that have no result below zero. -/
def inspect? (size start : Nat) (grouped : Bool) (body : List Char) : Option Fault :=
  match hyphenPositions start body with
  | .error fault => some fault
  | .ok hyphens =>
    if hyphens.isEmpty && !grouped then some (.length size)
    else if hyphens.length ≠ 4 then some (.groupCount (hyphens.length + 1))
    else do
      let positions ← hyphens.mapM (·.psub start)
      match ← measure? 0 positions groupEnds with
      | some fault => return fault
      | none => return .groupLength 4 12 (← size.psub 24)

/-- `diagnose` with subtractions that have no result below zero. -/
def diagnose? (cs : List Char) : Option Fault :=
  match core? cs with
  | some core => inspect? (Utf8.length core) 0 true core
  | none =>
    let size := Utf8.length cs
    if size = 0 ∨ 45 < size then some (.length size)
    else match unbraced? cs, unregistered? cs with
      | some body, _ => inspect? size 1 true body
      | none, some body => inspect? size namespaceName.length true body
      | none, none => inspect? size 0 false cs

theorem measure?_breaks (ns : List Nat) (groups : List (List Char)) (group start : Nat) :
    measure? group (breaks start groups) (bounds start ns) =
      some (misplaced? group (breaks start groups) (bounds start ns)) := by
  induction ns generalizing groups group start with
  | nil => rcases groups with _ | ⟨g, _ | ⟨g', groups⟩⟩ <;> rfl
  | cons n ns ih =>
    rcases groups with _ | ⟨g, _ | ⟨g', groups⟩⟩
    · rfl
    · rfl
    · rw [breaks, bounds, measure?, misplaced?]
      by_cases hg : start + g.length = start + n
      · rw [if_pos hg, if_pos hg, hg]
        exact ih _ _ _
      · rw [if_neg hg, if_neg hg, Nat.psub_eq_sub (Nat.le_add_right start n),
          Nat.psub_eq_sub (Nat.le_add_right start g.length)]
        rfl

theorem mapM_psub_breaks (start : Nat) (groups : List (List Char)) :
    (breaks start groups).mapM (·.psub start) = some (breaks 0 groups) := by
  have hpsub : ∀ ps : List Nat, (ps.map (start + ·)).mapM (·.psub start) = some ps := by
    intro ps
    induction ps with
    | nil => rfl
    | cons p ps ih =>
      rw [List.map_cons, List.mapM_cons, ih, Nat.psub_eq_sub (Nat.le_add_right start p),
        Nat.add_sub_cancel_left]
      rfl
  rw [← Nat.add_zero start, breaks_add]
  exact hpsub _

theorem inspect?_eq_some {size : Nat} {body : List Char} (hsize : String.utf8Len body ≤ size)
    (start : Nat) (grouped : Bool) :
    inspect? size start grouped body = some (inspect size start grouped body) := by
  rw [inspect?, inspect]
  cases hps : hyphenPositions start body with
  | error fault => rfl
  | ok ps =>
    obtain ⟨hbody, rfl⟩ := hyphenPositions_eq_ok hps
    simp only
    split
    · rfl
    · split
      · rfl
      · next hcount =>
        have hgroups : (body.splitOn '-').length = 5 := by
          rw [← length_breaks (List.splitOn_ne_nil '-' body) start]
          omega
        rw [map_sub_breaks, mapM_psub_breaks, groupEnds_eq]
        simp only [Option.bind_eq_bind, Option.bind_some, measure?_breaks]
        rcases misplaced?_breaks [8, 4, 4, 4] hgroups 0 0 with
          ⟨hnone, htake⟩ | ⟨i, expected, found, -, hsome⟩
        · obtain ⟨last, hlast⟩ := exists_last hgroups htake
          have hlength := hbody.utf8Len_eq hlast
          rw [hnone, Nat.psub_eq_sub (by omega)]
          rfl
        · rw [hsome]
          rfl

/-- **No subtraction of the second reading goes below zero**, whatever the text is. -/
theorem diagnose?_eq_some (cs : List Char) : diagnose? cs = some (diagnose cs) := by
  rw [diagnose?, diagnose]
  cases core? cs with
  | some core => exact inspect?_eq_some (Utf8.length_eq core).ge 0 true
  | none =>
    simp only [Utf8.length_eq]
    split
    · rfl
    · cases hbraced : unbraced? cs with
      | some body => exact inspect?_eq_some (wraps_of_unbraced? hbraced).utf8Len_le 1 true
      | none =>
        cases hname : unregistered? cs with
        | some body =>
          exact inspect?_eq_some (wraps_of_unregistered? hname).utf8Len_le namespaceName.length true
        | none => exact inspect?_eq_some (Nat.le_refl _) 0 false

/-! ## The wording -/

/-- A text that ends with a number behind a blank is cut before the number in one way only. -/
theorem append_blank_injective {a b : List Char} {m n : Nat}
    (h : a ++ ' ' :: Decimal.digits m = b ++ ' ' :: Decimal.digits n) : a = b ∧ m = n := by
  have hblank : ∀ n : Nat, ' ' ∉ Decimal.digits n := fun n =>
    Decimal.notMem_signedDigits (by decide) (by decide) (n : Int)
  obtain ⟨hab, hmn⟩ := Text.append_cons_injective h (hblank m) (hblank n)
  have hcast : (m : Int) = n := Decimal.signedDigits_injective hmn
  exact ⟨hab, Int.ofNat_inj.1 hcast⟩

/-- What a fault says of a number: what it should be, and what it is. -/
def expectation (expected found : Nat) : String :=
  "expected " ++ Decimal.ofNat expected ++ ", found " ++ Decimal.ofNat found

theorem toList_expectation (expected found : Nat) : (expectation expected found).toList =
    ("expected".toList ++ ' ' :: Decimal.digits expected ++ ", found".toList) ++
      ' ' :: Decimal.digits found := by
  simp [expectation, Decimal.ofNat]

/-- **A text that ends with what was expected and found says so of groups**, of their number or of
the length of one. -/
theorem Fault.of_expectation_suffix {fault : Fault} {expected found : Nat}
    (h : (expectation expected found).toList <:+ fault.message.toList) :
    fault = .groupCount found ∧ expected = 5 ∨
      ∃ group, fault = .groupLength group expected found := by
  obtain ⟨before, h⟩ := h
  rw [toList_expectation, ← List.append_assoc] at h
  cases fault with
  | character c index =>
    have hmessage : ("invalid character: found `" ++ String.ofList [c] ++ "` at " ++
        Decimal.ofNat index).toList = ("invalid character: found `".toList ++ c :: "` at".toList) ++
          ' ' :: Decimal.digits index := by simp [Decimal.ofNat]
    have hbefore := (append_blank_injective (h.trans hmessage)).1
    have hlast := congrArg List.getLast? hbefore
    simp [List.getLast?_cons, List.getLast?_append] at hlast
  | length size =>
    have hmessage : ("invalid length: found " ++ Decimal.ofNat size).toList =
        ("invalid length:".toList ++ " found".toList) ++ ' ' :: Decimal.digits size := by
      simp [Decimal.ofNat]
    have hfound : ", found".toList = [','] ++ " found".toList := by simp
    have hbefore := (append_blank_injective (h.trans hmessage)).1
    rw [hfound, ← List.append_assoc, ← List.append_assoc] at hbefore
    have hlast := congrArg List.getLast? (List.append_cancel_right hbefore)
    simp [List.getLast?_cons, List.getLast?_append] at hlast
  | groupCount count =>
    have hmessage : ("invalid group count: expected 5, found " ++ Decimal.ofNat count).toList =
        ("invalid group count: expected".toList ++ ' ' :: Decimal.digits 5 ++ ", found".toList) ++
          ' ' :: Decimal.digits count := by
      have hfive : Decimal.digits 5 = ['5'] := by decide +kernel
      simp [Decimal.ofNat, hfive]
    obtain ⟨hbefore, rfl⟩ := append_blank_injective (h.trans hmessage)
    rw [← List.append_assoc, ← List.append_assoc] at hbefore
    exact .inl ⟨rfl, (append_blank_injective (List.append_cancel_right hbefore)).2⟩
  | groupLength group expected' found' =>
    have hmessage : ("invalid group length in group " ++ Decimal.ofNat group ++ ": expected " ++
        Decimal.ofNat expected' ++ ", found " ++ Decimal.ofNat found').toList =
        (("invalid group length in group ".toList ++ Decimal.digits group ++
          ": expected".toList) ++ ' ' :: Decimal.digits expected' ++ ", found".toList) ++
          ' ' :: Decimal.digits found' := by simp [Decimal.ofNat]
    obtain ⟨hbefore, rfl⟩ := append_blank_injective (h.trans hmessage)
    rw [← List.append_assoc, ← List.append_assoc] at hbefore
    obtain ⟨-, rfl⟩ := append_blank_injective (List.append_cancel_right hbefore)
    exact .inr ⟨group, rfl⟩

end VideoComments.Uuid

import Mathlib.Data.String.Basic
import VideoComments.Proofs.Uuid.Grammar
import VideoComments.Uuid.Fault

/-!
# What is looked for in a text that spells no identifier

The groups of a text are what stands between its hyphens, `splitOn '-'`. The second reading does not
split a text: it notes the byte positions of the hyphens (`breaks`) and compares them with where the
groups of a spelling end (`bounds`). Group by group this finds the first one whose length is wrong
(`misplaced?_breaks`), and `Inspected` lists what may be found in one text (`inspected`).
-/

namespace VideoComments

theorem Utf8.length_eq (cs : List Char) : Utf8.length cs = String.utf8Len cs := by
  have hfold : ∀ n, cs.foldl (fun n c => n + c.utf8Size) n = n + String.utf8Len cs := by
    induction cs with
    | nil => exact fun n => rfl
    | cons c cs ih =>
      intro n
      rw [List.foldl_cons, ih, String.utf8Len_cons]
      omega
  exact (hfold 0).trans (Nat.zero_add _)

/-- A character of ASCII takes one byte. -/
theorem Hex.utf8Size_of_isDigit {c : Char} (h : Hex.isDigit c = true) : c.utf8Size = 1 := by
  obtain ⟨d, hd⟩ := Option.isSome_iff_exists.1 h
  have hlt := Hex.toNat_lt_of_digit? hd
  exact Char.utf8Size_eq_one_iff.2 (UInt32.le_iff_toNat_le.2 (Nat.le_of_lt_succ hlt))

namespace Uuid

/-! ## Groups of a text -/

/-- A text that is made of hexadecimal digits and hyphens. -/
def Hyphened (cs : List Char) : Prop := ∀ c ∈ cs, Hex.isDigit c = true ∨ c = '-'

theorem Hyphened.utf8Len {cs : List Char} (h : Hyphened cs) : String.utf8Len cs = cs.length := by
  induction cs with
  | nil => rfl
  | cons c cs ih =>
    rw [Hyphened, List.forall_mem_cons] at h
    have hc : c.utf8Size = 1 := by
      rcases h.1 with hdigit | rfl
      · exact Hex.utf8Size_of_isDigit hdigit
      · rfl
    rw [String.utf8Len_cons, ih h.2, hc, List.length_cons]

/-- Where the hyphens stand between groups of which the first one begins at `index`. -/
def breaks (index : Nat) : List (List Char) → List Nat
  | [] => []
  | [_] => []
  | g :: h :: gs => (index + g.length) :: breaks (index + g.length + 1) (h :: gs)

theorem length_breaks {groups : List (List Char)} (h : groups ≠ []) (index : Nat) :
    (breaks index groups).length + 1 = groups.length := by
  induction groups generalizing index with
  | nil => exact absurd rfl h
  | cons g groups ih =>
    cases groups with
    | nil => rfl
    | cons g' groups => exact congrArg Nat.succ (ih (List.cons_ne_nil _ _) _)

theorem breaks_modifyHead {groups : List (List Char)} (h : groups ≠ []) (c : Char) (index : Nat) :
    breaks index (groups.modifyHead (List.cons c)) = breaks (index + 1) groups := by
  rcases groups with _ | ⟨g, _ | ⟨g', groups⟩⟩
  · exact absurd rfl h
  · rfl
  · simp only [List.modifyHead_cons, breaks, List.length_cons]
    rw [show index + (g.length + 1) = index + 1 + g.length by omega]

theorem breaks_cons_nil {groups : List (List Char)} (h : groups ≠ []) (index : Nat) :
    breaks index ([] :: groups) = index :: breaks (index + 1) groups := by
  obtain ⟨g, groups, rfl⟩ := List.exists_cons_of_ne_nil h
  rfl

theorem breaks_add (k index : Nat) (groups : List (List Char)) :
    breaks (k + index) groups = (breaks index groups).map (k + ·) := by
  induction groups generalizing index with
  | nil => rfl
  | cons g groups ih =>
    cases groups with
    | nil => rfl
    | cons g' groups =>
      simp only [breaks, List.map_cons]
      rw [← ih, Nat.add_assoc, Nat.add_assoc, Nat.add_assoc]

/-- The positions of the hyphens relative to where the first group begins. -/
theorem map_sub_breaks (start : Nat) (groups : List (List Char)) :
    (breaks start groups).map (· - start) = breaks 0 groups := by
  rw [← Nat.add_zero start, breaks_add, List.map_map]
  simp [Function.comp_def]

theorem length_splitOn (cs : List Char) : (cs.splitOn '-').length = cs.count '-' + 1 := by
  induction cs with
  | nil => rfl
  | cons c cs ih =>
    rw [List.splitOn_cons_eq_if_modifyHead, List.count_cons]
    split
    · rw [List.length_cons, ih]
    · rw [List.length_modifyHead, ih, Nat.add_zero]

/-! ## The characters are looked through -/

theorem hyphenPositions_eq_ok {index : Nat} {cs : List Char} {ps : List Nat}
    (h : hyphenPositions index cs = .ok ps) : Hyphened cs ∧ ps = breaks index (cs.splitOn '-') := by
  induction cs generalizing index ps with
  | nil =>
    cases h
    exact ⟨List.forall_mem_nil _, rfl⟩
  | cons c cs ih =>
    rw [hyphenPositions] at h
    by_cases hdigit : Hex.isDigit c = true
    · have hc : (c == '-') = false := by
        rw [beq_eq_false_iff_ne]
        rintro rfl
        exact absurd hdigit (by decide)
      rw [if_pos hdigit, Hex.utf8Size_of_isDigit hdigit] at h
      obtain ⟨hcs, rfl⟩ := ih h
      refine ⟨List.forall_mem_cons.2 ⟨.inl hdigit, hcs⟩, ?_⟩
      rw [List.splitOn_cons_eq_if_modifyHead, hc, if_neg (by decide),
        breaks_modifyHead (List.splitOn_ne_nil _ _)]
    · rw [if_neg hdigit] at h
      split at h
      · next hc =>
        subst hc
        cases hmore : hyphenPositions (index + '-'.utf8Size) cs with
        | error fault =>
          rw [hmore] at h
          cases h
        | ok more =>
          rw [hmore] at h
          cases h
          obtain ⟨hcs, rfl⟩ := ih hmore
          refine ⟨List.forall_mem_cons.2 ⟨.inr rfl, hcs⟩, ?_⟩
          rw [List.splitOn_cons_eq_if_modifyHead, if_pos (beq_self_eq_true _),
            breaks_cons_nil (List.splitOn_ne_nil _ _)]
          rfl
      · cases h

theorem hyphenPositions_eq_error {index : Nat} {cs : List Char} {fault : Fault}
    (h : hyphenPositions index cs = .error fault) : ∃ before c after, cs = before ++ c :: after ∧
      Hex.isDigit c = false ∧ c ≠ '-' ∧
      fault = .character c (index + String.utf8Len before) := by
  induction cs generalizing index with
  | nil => cases h
  | cons c cs ih =>
    rw [hyphenPositions] at h
    have goesOn : hyphenPositions (index + c.utf8Size) cs = .error fault →
        ∃ before c' after, c :: cs = before ++ c' :: after ∧ Hex.isDigit c' = false ∧ c' ≠ '-' ∧
          fault = .character c' (index + String.utf8Len before) := fun hmore => by
      obtain ⟨before, c', after, rfl, hdigit, hhyphen, rfl⟩ := ih hmore
      refine ⟨c :: before, c', after, rfl, hdigit, hhyphen, ?_⟩
      rw [String.utf8Len_cons, Nat.add_comm (String.utf8Len before), Nat.add_assoc]
    by_cases hdigit : Hex.isDigit c = true
    · rw [if_pos hdigit] at h
      exact goesOn h
    · rw [if_neg hdigit] at h
      split at h
      · cases hmore : hyphenPositions (index + c.utf8Size) cs with
        | error fault' =>
          rw [hmore] at h
          cases h
          exact goesOn hmore
        | ok more =>
          rw [hmore] at h
          cases h
      · next hhyphen =>
        cases h
        exact ⟨[], c, cs, rfl, Bool.eq_false_of_not_eq_true hdigit, hhyphen, rfl⟩

/-! ## The groups are measured -/

/-- Where groups of the given lengths end, and where each starts. -/
def bounds (start : Nat) : List Nat → List (Nat × Nat)
  | [] => []
  | n :: ns => (start + n, start) :: bounds (start + n + 1) ns

theorem groupEnds_eq : groupEnds = bounds 0 [8, 4, 4, 4] := rfl

/-- The first group whose length is not the one in the list, and that length. -/
inductive Uneven : List Nat → List (List Char) → Nat → Nat → Nat → Prop
  | here {n : Nat} {ns : List Nat} {g : List Char} {groups : List (List Char)} (h : g.length ≠ n) :
      Uneven (n :: ns) (g :: groups) 0 n g.length
  | later {ns : List Nat} {g : List Char} {groups : List (List Char)} {i expected found : Nat}
      (h : Uneven ns groups i expected found) :
      Uneven (g.length :: ns) (g :: groups) (i + 1) expected found

theorem Uneven.ne {ns : List Nat} {groups : List (List Char)} {i expected found : Nat}
    (h : Uneven ns groups i expected found) : found ≠ expected := by
  induction h with
  | here h => exact h
  | later _ ih => exact ih

/-- Either every group ends where it should, or the first that does not is reported. -/
theorem misplaced?_breaks (ns : List Nat) {groups : List (List Char)}
    (hlength : groups.length = ns.length + 1) (group start : Nat) :
    misplaced? group (breaks start groups) (bounds start ns) = none ∧
        (groups.map List.length).take ns.length = ns ∨
      ∃ i expected found, Uneven ns groups i expected found ∧
        misplaced? group (breaks start groups) (bounds start ns) =
          some (.groupLength (group + i) expected found) := by
  induction ns generalizing groups group start with
  | nil =>
    obtain ⟨g, rfl⟩ := List.length_eq_one_iff.1 hlength
    exact .inl ⟨rfl, rfl⟩
  | cons n ns ih =>
    rcases groups with _ | ⟨g, _ | ⟨g', groups⟩⟩
    · cases hlength
    · cases hlength
    · rw [breaks, bounds, misplaced?]
      by_cases hg : g.length = n
      · subst hg
        rw [if_pos rfl]
        rcases ih (Nat.succ.inj hlength) (group + 1) (start + g.length + 1) with
          ⟨hnone, htake⟩ | ⟨i, expected, found, huneven, hsome⟩
        · refine .inl ⟨hnone, ?_⟩
          rw [List.map_cons, List.length_cons, List.take_succ_cons, htake]
        · refine .inr ⟨i + 1, expected, found, .later huneven, ?_⟩
          rw [hsome, Nat.add_assoc, Nat.add_comm 1]
      · rw [if_neg (by omega), Nat.add_sub_cancel_left, Nat.add_sub_cancel_left]
        exact .inr ⟨0, n, g.length, .here hg, rfl⟩

/-- What is left to be uneven is the last group. -/
theorem Uneven.last {ns : List Nat} {groups : List (List Char)} {n k : Nat}
    (h : groups.map List.length = ns ++ [k]) (hk : k ≠ n) :
    Uneven (ns ++ [n]) groups ns.length n k := by
  induction ns generalizing groups with
  | nil =>
    obtain ⟨g, rfl, rfl⟩ := List.map_eq_singleton_iff.1 h
    exact .here hk
  | cons m ns ih =>
    obtain ⟨g, groups, rfl, rfl, hgroups⟩ := List.map_eq_cons_iff.1 h
    exact .later (ih hgroups)

/-- After four groups of the right lengths there is one more. -/
theorem exists_last {groups : List (List Char)} {ns : List Nat}
    (hlength : groups.length = ns.length + 1)
    (htake : (groups.map List.length).take ns.length = ns) :
    ∃ last, groups.map List.length = ns ++ [last] := by
  have hdrop : ((groups.map List.length).drop ns.length).length = 1 := by
    rw [List.length_drop, List.length_map, hlength, Nat.add_sub_cancel_left]
  obtain ⟨last, hlast⟩ := List.length_eq_one_iff.1 hdrop
  have hsplit := List.take_append_drop ns.length (groups.map List.length)
  rw [htake, hlast] at hsplit
  exact ⟨last, hsplit.symm⟩

/-! ## One text is looked at -/

/-- What the second reading may find in `body`, which stands at `start` in a text of `size`
bytes. -/
inductive Inspected (size start : Nat) (grouped : Bool) (body : List Char) : Fault → Prop
  | character {before after : List Char} {c : Char} (h : body = before ++ c :: after)
      (hdigit : Hex.isDigit c = false) (hhyphen : c ≠ '-') :
      Inspected size start grouped body (.character c (start + String.utf8Len before))
  | length (hgrouped : grouped = false) (h : ∀ c ∈ body, Hex.isDigit c = true) :
      Inspected size start grouped body (.length size)
  | groupCount (h : body.count '-' ≠ 4) :
      Inspected size start grouped body (.groupCount (body.count '-' + 1))
  | groupLength {i expected found : Nat} (hcount : body.count '-' = 4)
      (h : Uneven [8, 4, 4, 4] (body.splitOn '-') i expected found) :
      Inspected size start grouped body (.groupLength i expected found)
  | lastLength {last : Nat} (hbody : Hyphened body)
      (h : (body.splitOn '-').map List.length = [8, 4, 4, 4] ++ [last]) :
      Inspected size start grouped body (.groupLength 4 12 (size - 24))

theorem inspected (size start : Nat) (grouped : Bool) (body : List Char) :
    Inspected size start grouped body (inspect size start grouped body) := by
  rw [inspect]
  cases hps : hyphenPositions start body with
  | error fault =>
    obtain ⟨before, c, after, hbody, hdigit, hhyphen, rfl⟩ := hyphenPositions_eq_error hps
    exact .character hbody hdigit hhyphen
  | ok ps =>
    obtain ⟨hbody, rfl⟩ := hyphenPositions_eq_ok hps
    have hlength : (breaks start (body.splitOn '-')).length = body.count '-' := by
      have := length_breaks (List.splitOn_ne_nil '-' body) start
      rw [length_splitOn] at this
      exact Nat.succ.inj this
    simp only [hlength]
    split
    · next hempty =>
      rw [Bool.and_eq_true, List.isEmpty_iff, Bool.not_eq_true'] at hempty
      refine .length hempty.2 fun c hc => (hbody c hc).resolve_right ?_
      rintro rfl
      rw [hempty.1, List.length_nil] at hlength
      exact (List.count_pos_iff.2 hc).ne hlength
    · split
      · next hcount => exact .groupCount hcount
      · next hcount =>
        have hcount : body.count '-' = 4 := by omega
        have hgroups : (body.splitOn '-').length = 5 := by rw [length_splitOn, hcount]
        rw [map_sub_breaks, groupEnds_eq]
        rcases misplaced?_breaks [8, 4, 4, 4] hgroups 0 0 with
          ⟨hnone, htake⟩ | ⟨i, expected, found, huneven, hsome⟩
        · rw [hnone]
          obtain ⟨last, hlast⟩ := exists_last hgroups htake
          exact .lastLength hbody hlast
        · rw [hsome, Nat.zero_add]
          exact .groupLength hcount huneven

end Uuid

end VideoComments

import VideoComments.Proofs.Service.Calls
import VideoComments.Proofs.Uuid.Fault
import VideoComments.Proofs.Uuid.Grammar
import VideoComments.Proofs.Uuid.Spelling

/-!
# The identifier in a request

A request names a comment in any of the four spellings of its identifier, and in no other way
(`commentId_eq_ok_iff`). A call does the same whichever of them is chosen: it answers the same and
leaves the same world, only the span of the call shows the text as it was sent
(`spelling_is_immaterial`). A text that is no spelling is refused, and the reason that is given is a
true one (`refusal_is_genuine`).
-/

namespace VideoComments

/-- The world without the spans that have been noted. -/
def World.unspanned (w : World) : World := { w with trace := { w.trace with spans := [] } }

namespace Service

open Program Rpc

/-! ## Identifiers -/

theorem commentId_eq_ok {s : String} {u : Uuid} :
    commentId s = .ok u ↔ Uuid.ofText s = .ok u := by
  refine ⟨fun h => ?_, commentId_of_ok⟩
  cases hs : Uuid.ofText s with
  | ok v =>
    rw [commentId_of_ok hs] at h
    exact congrArg Except.ok (Except.ok.inj h)
  | error fault =>
    rw [commentId_of_error hs] at h
    cases h

/-- **An identifier is accepted in its four spellings**, and is the number that its digits spell. -/
theorem commentId_eq_ok_iff {s : String} {u : Uuid} :
    commentId s = .ok u ↔
      ∃ ds, Uuid.Spells s.toList ds ∧ u.toNat = Nat.ofDigits 16 ds.reverse := by
  rw [commentId_eq_ok, ← Uuid.parse?_eq_some_iff, Uuid.ofText]
  cases Uuid.parse? s.toList with
  | some v => rw [Except.ok.injEq, Option.some.injEq]
  | none => simp only [reduceCtorEq]

theorem commentId_text (u : Uuid) : commentId u.text = .ok u := commentId_of_ok (Uuid.ofText_text u)

/-- Every spelling is accepted. -/
theorem exists_commentId {s : String} {ds : List Nat} (h : Uuid.Spells s.toList ds) :
    ∃ u, commentId s = .ok u ∧ u.toNat = Nat.ofDigits 16 ds.reverse :=
  ⟨_, commentId_eq_ok_iff.2 ⟨ds, h, h.toNat_ofNat⟩, h.toNat_ofNat⟩

/-! ## Calls -/

/-- Two programs answer the same and leave the same world, but for the spans that are noted. -/
def EndAlike {α : Type} (p p' : Program α) : Prop :=
  ∀ w : World, (p.run World.handler w).1 = (p'.run World.handler w).1 ∧
    (p.run World.handler w).2.unspanned = (p'.run World.handler w).2.unspanned

/-- What is attached to its span changes nothing else about a call. -/
theorem endAlike_accounted {α : Type} (method : Method)
    (attributes attributes' : List (String × Attribute)) (work : Program (Completion α)) :
    EndAlike (accounted method attributes work) (accounted method attributes' work) := by
  intro w
  simp only [accounted, run_bind]
  exact ⟨rfl, rfl⟩

variable {s s' : String} {u : Uuid}

theorem endAlike_update (h : commentId s = .ok u) (h' : commentId s' = .ok u)
    (repository : Repository) (content : String) :
    EndAlike (call repository (.update ⟨s, content⟩))
      (call repository (.update ⟨s', content⟩)) := by
  have hwork : update repository ⟨s, content⟩ = update repository ⟨s', content⟩ := by
    simp only [update, h, h']
    exact bind_congr fun answer => by cases answer <;> rfl
  have hcall : ∀ s, call repository (.update ⟨s, content⟩) = accounted .updateComment
      (attributes (.update ⟨s, content⟩)) (update repository ⟨s, content⟩) := fun _ => rfl
  rw [hcall, hcall, hwork]
  exact endAlike_accounted _ _ _ _

theorem endAlike_delete (h : commentId s = .ok u) (h' : commentId s' = .ok u)
    (repository : Repository) :
    EndAlike (call repository (.delete ⟨s⟩)) (call repository (.delete ⟨s'⟩)) := by
  have hwork : delete repository ⟨s⟩ = delete repository ⟨s'⟩ := by
    simp only [delete, h, h']
  have hcall : ∀ s, call repository (.delete ⟨s⟩) = accounted .deleteComment
      (attributes (.delete ⟨s⟩)) (delete repository ⟨s⟩) := fun _ => rfl
  rw [hcall, hcall, hwork]
  exact endAlike_accounted _ _ _ _

/-- **How an identifier is spelled does not matter.** Every spelling is accepted as the number of
its digits, and nothing else is accepted. The text of an identifier is one of its spellings. Over
any repository and in any world, updates and deletions do the same for all spellings of an
identifier. -/
theorem spelling_is_immaterial :
    (∀ s ds, Uuid.Spells s.toList ds →
      ∃ u, commentId s = .ok u ∧ u.toNat = Nat.ofDigits 16 ds.reverse) ∧
    (∀ s u, commentId s = .ok u →
      ∃ ds, Uuid.Spells s.toList ds ∧ u.toNat = Nat.ofDigits 16 ds.reverse) ∧
    (∀ u : Uuid, commentId u.text = .ok u) ∧
    ∀ (s s' : String) (u : Uuid), commentId s = .ok u → commentId s' = .ok u →
      ∀ repository : Repository,
        (∀ content, EndAlike (call repository (.update ⟨s, content⟩))
          (call repository (.update ⟨s', content⟩))) ∧
        EndAlike (call repository (.delete ⟨s⟩)) (call repository (.delete ⟨s'⟩)) :=
  ⟨fun _ _ => exists_commentId, fun _ _ => commentId_eq_ok_iff.1, commentId_text,
    fun _ _ _ h h' repository =>
      ⟨endAlike_update h h' repository, endAlike_delete h h' repository⟩⟩

/-- An identifier in braces and in capitals, and after the registered name. -/
theorem spelling_is_immaterial_capitals :
    commentId "\x7b0000000A-0000-4000-8000-00000000000B\x7d" =
      .ok (.ofNat 0x0000000A00004000800000000000000B) ∧
    commentId "URN:uuid:0000000a-0000-4000-8000-00000000000b" =
      .ok (.ofNat 0x0000000A00004000800000000000000B) ∧
    ∀ repository : Repository, EndAlike
      (call repository (.delete ⟨"\x7b0000000A-0000-4000-8000-00000000000B\x7d"⟩))
      (call repository (.delete ⟨"URN:uuid:0000000a-0000-4000-8000-00000000000b"⟩)) := by
  have hbraced : commentId "\x7b0000000A-0000-4000-8000-00000000000B\x7d" =
      .ok (.ofNat 0x0000000A00004000800000000000000B) := by decide
  have hregistered : commentId "URN:uuid:0000000a-0000-4000-8000-00000000000b" =
      .ok (.ofNat 0x0000000A00004000800000000000000B) := by decide
  exact ⟨hbraced, hregistered, fun repository =>
    (spelling_is_immaterial.2.2.2 _ _ _ hbraced hregistered repository).2⟩

/-! ## Identifiers that are refused -/

/-- **A refusal gives a true reason.** The failure keeps the text as it was sent and words a fault
that is really there. None of the subtractions on the way to it goes below zero, and it never
reports of a number that it should be what it is. -/
theorem refusal_is_genuine {s : String} {failure : Failure} (h : commentId s = .error failure) :
    ∃ fault, failure = .invalidId s fault ∧
      failure.message = "invalid comment id `" ++ s ++ "`: " ++ fault.message ∧
      Uuid.Genuine s.toList fault ∧ Uuid.diagnose? s.toList = some fault ∧
      ∀ n, ¬ (Uuid.expectation n n).toList <:+ fault.message.toList := by
  have hparse : Uuid.parse? s.toList = none := by
    cases hs : Uuid.parse? s.toList with
    | none => rfl
    | some u =>
      rw [commentId_of_ok (Uuid.ofText_eq_ok hs)] at h
      cases h
  rw [commentId_of_error (Uuid.ofText_eq_error hparse)] at h
  obtain rfl := Except.error.inj h
  have hgenuine := Uuid.genuine_diagnose hparse
  refine ⟨_, rfl, rfl, hgenuine, Uuid.diagnose?_eq_some s.toList, fun n hn => ?_⟩
  rcases Uuid.Fault.of_expectation_suffix hn with ⟨hfault, rfl⟩ | ⟨group, hfault⟩
  · rw [hfault] at hgenuine
    generalize hcount : 5 = count at hgenuine
    cases hgenuine with
    | groupCount h => exact h hcount.symm
  · rw [hfault] at hgenuine
    exact hgenuine.ne rfl

/-- In braces a letter that is no digit takes two bytes, and stands at the 34th byte inside. -/
theorem refusal_is_genuine_accent :
    commentId "\x7b0000000a-0000-4000-8000-0000000000\u00e9\x7d" =
      .error (.invalidId "\x7b0000000a-0000-4000-8000-0000000000\u00e9\x7d"
        (.character '\u00e9' 34)) ∧
    Uuid.Genuine "\x7b0000000a-0000-4000-8000-0000000000\u00e9\x7d".toList
      (.character '\u00e9' 34) := by
  have hrefused : commentId "\x7b0000000a-0000-4000-8000-0000000000\u00e9\x7d" =
      .error (.invalidId "\x7b0000000a-0000-4000-8000-0000000000\u00e9\x7d"
        (.character '\u00e9' 34)) := by decide
  obtain ⟨fault, hfailure, -, hgenuine, -⟩ := refusal_is_genuine hrefused
  obtain rfl := (Failure.invalidId.inj hfailure).2
  exact ⟨hrefused, hgenuine⟩

end Service

end VideoComments

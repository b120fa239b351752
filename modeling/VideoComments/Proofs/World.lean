import VideoComments.Proofs.Simulation
import VideoComments.World

/-!
# What has been noted matters to no answer

Worlds are `Alike` if they differ at most in what has been noted: the trace and the metrics. Alike
worlds answer every call alike and stay alike, so a program runs alike in both (`run_alike`,
`exchanges_alike`). Logging and accounting can therefore be left out of account when a run is
followed.
-/

namespace VideoComments.World

/-- The world with nothing noted. -/
def unnoted (w : World) : World := { w with trace := {}, metrics := {} }

/-- The same but for what has been noted. -/
def Alike (w w' : World) : Prop := w.unnoted = w'.unnoted

variable {w w' : World}

theorem Alike.refl (w : World) : w.Alike w := rfl

theorem Alike.symm (h : w.Alike w') : w'.Alike w := Eq.symm h

theorem Alike.trans {w'' : World} (h : w.Alike w') (h' : w'.Alike w'') : w.Alike w'' :=
  Eq.trans h h'

theorem Alike.now (h : w.Alike w') : w.now = w'.now :=
  (congrArg World.now h : w.unnoted.now = w'.unnoted.now)

theorem Alike.table (h : w.Alike w') : w.table = w'.table :=
  (congrArg World.table h : w.unnoted.table = w'.unnoted.table)

theorem Alike.entries (h : w.Alike w') : w.entries = w'.entries :=
  (congrArg World.entries h : w.unnoted.entries = w'.unnoted.entries)

theorem alike_receive (signal : Signal) (w : World) : w.Alike (w.receive signal) := by
  cases signal <;> rfl

theorem answer_unnoted (c : Call) (w : World) :
    (answer c w).1 = (answer c w.unnoted).1 ∧ (answer c w).2.Alike (answer c w.unnoted).2 := by
  obtain ⟨now, table, created, entries, storeFaults, cacheFaults, database, redis, -, -⟩ := w
  cases c with
  | clock => exact ⟨rfl, rfl⟩
  | freshId => exact ⟨rfl, rfl⟩
  | store op =>
    rcases storeFaults with _ | ⟨_ | failure, faults⟩ <;> cases op <;> exact ⟨rfl, rfl⟩
  | statement s =>
    cases database with
    | down cause => exact ⟨rfl, rfl⟩
    | up => rcases storeFaults with _ | ⟨_ | failure, faults⟩ <;> exact ⟨rfl, rfl⟩
  | cache op =>
    rcases cacheFaults with _ | ⟨_ | failure, faults⟩ <;> exact ⟨rfl, rfl⟩
  | redis c =>
    cases redis with
    | down cause => exact ⟨rfl, rfl⟩
    | up => rcases cacheFaults with _ | ⟨_ | failure, faults⟩ <;> exact ⟨rfl, rfl⟩

/-- **Alike worlds answer alike**, and stay alike. -/
theorem answer_alike (h : w.Alike w') (c : Call) :
    (answer c w).1 = (answer c w').1 ∧ (answer c w).2.Alike (answer c w').2 := by
  obtain ⟨hanswer, halike⟩ := answer_unnoted c w
  obtain ⟨hanswer', halike'⟩ := answer_unnoted c w'
  rw [h] at hanswer halike
  exact ⟨hanswer.trans hanswer'.symm, halike.trans halike'.symm⟩

/-- A program makes the same calls in alike worlds, gets the same answers and leaves alike worlds. -/
theorem agrees_alike {α : Type} (p : Program α) (h : w.Alike w') :
    p.exchanges handler w = p.exchanges handler w' ∧
      (p.run handler w).1 = (p.run handler w').1 ∧
      (p.run handler w).2.Alike (p.run handler w').2 := by
  have hreceive : ∀ (signal : Signal) (w w' : World), w.Alike w' →
      (handler.receive signal w).Alike (handler.receive signal w') := fun signal w w' h =>
    ((alike_receive signal w).symm.trans h).trans (alike_receive signal w')
  have hask : ∀ c : Call, True → Program.Agree handler handler Alike (.ask c) (.ask c) :=
    fun c _ _ _ h => answer_alike h c
  exact Program.run_agree hreceive hask (fun _ _ => trivial) h

/-- **A program runs alike in alike worlds.** -/
theorem run_alike {α : Type} (p : Program α) (h : w.Alike w') :
    (p.run handler w).1 = (p.run handler w').1 ∧
      (p.run handler w).2.Alike (p.run handler w').2 := (agrees_alike p h).2

theorem exchanges_alike {α : Type} (p : Program α) (h : w.Alike w') :
    p.exchanges handler w = p.exchanges handler w' := (agrees_alike p h).1

end VideoComments.World

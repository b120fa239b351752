import VideoComments.Program

/-!
# Reasoning about programs

* A run of one program after another is a run of the second from where the first one ended
  (`run_bind`), and the exchanges of both follow each other (`exchanges_bind`).
* `Obeys may ends` says of a program what it may call and how it may end, in terms of the exchanges
  so far and whatever it is answered. It is proved along the structure of a program
  (`obeys_bind`, `obeys_ask`) and holds of what is left of the program after any exchange.
-/

namespace VideoComments

/-- A call, and the answer that it got. -/
abbrev Exchange := (c : Call) × c.Answer

namespace Program

variable {σ α β : Type}

/-! ## Runs -/

@[simp] theorem run_pure (h : Handler σ) (a : α) (s : σ) : (pure a : Program α).run h s = (a, s) :=
  rfl

@[simp] theorem run_ask (h : Handler σ) (c : Call) (s : σ) : (ask c).run h s = h.answer c s := rfl

@[simp] theorem run_log (h : Handler σ) (level : Level) (message : String) (s : σ) :
    (log level message).run h s = ((), h.receive (.log ⟨level, message⟩) s) := rfl

@[simp] theorem run_bind (h : Handler σ) (p : Program α) (f : α → Program β) (s : σ) :
    (p >>= f).run h s = (f (p.run h s).1).run h (p.run h s).2 := by
  induction p generalizing s with
  | done a => rfl
  | emit signal next ih => exact ih (h.receive signal s)
  | await c next ih => exact ih (h.answer c s).1 (h.answer c s).2

/-- The exchanges of a run, in their order. -/
def exchanges (h : Handler σ) : Program α → σ → List Exchange
  | done _, _ => []
  | emit signal next, s => exchanges h next (h.receive signal s)
  | await c next, s => ⟨c, (h.answer c s).1⟩ :: exchanges h (next (h.answer c s).1) (h.answer c s).2

@[simp] theorem exchanges_pure (h : Handler σ) (a : α) (s : σ) :
    (pure a : Program α).exchanges h s = [] := rfl

@[simp] theorem exchanges_ask (h : Handler σ) (c : Call) (s : σ) :
    (ask c).exchanges h s = [⟨c, (h.answer c s).1⟩] := rfl

@[simp] theorem exchanges_log (h : Handler σ) (level : Level) (message : String) (s : σ) :
    (log level message).exchanges h s = [] := rfl

@[simp] theorem exchanges_bind (h : Handler σ) (p : Program α) (f : α → Program β) (s : σ) :
    (p >>= f).exchanges h s =
      p.exchanges h s ++ (f (p.run h s).1).exchanges h (p.run h s).2 := by
  induction p generalizing s with
  | done a => rfl
  | emit signal next ih => exact ih (h.receive signal s)
  | await c next ih => exact congrArg _ (ih (h.answer c s).1 (h.answer c s).2)

/-! ## What programs may do -/

/-- After the exchanges `xs`, the program makes only calls that `may` allows and ends only as `ends`
allows, whatever it is answered. -/
def Obeys (may : List Exchange → Call → Prop) (ends : List Exchange → α → Prop) :
    List Exchange → Program α → Prop
  | xs, done a => ends xs a
  | xs, emit _ next => Obeys may ends xs next
  | xs, await c next => may xs c ∧ ∀ answer, Obeys may ends (xs ++ [⟨c, answer⟩]) (next answer)

variable {may : List Exchange → Call → Prop} {ends : List Exchange → α → Prop}

@[simp] theorem obeys_done (xs : List Exchange) (a : α) :
    Obeys may ends xs (done a) ↔ ends xs a := Iff.rfl

@[simp] theorem obeys_pure (xs : List Exchange) (a : α) :
    Obeys may ends xs (pure a) ↔ ends xs a := Iff.rfl

@[simp] theorem obeys_ask (c : Call) (ends : List Exchange → c.Answer → Prop) (xs : List Exchange) :
    Obeys may ends xs (ask c) ↔ may xs c ∧ ∀ answer, ends (xs ++ [⟨c, answer⟩]) answer := Iff.rfl

@[simp] theorem obeys_log (level : Level) (message : String) (ends : List Exchange → Unit → Prop)
    (xs : List Exchange) : Obeys may ends xs (log level message) ↔ ends xs () := Iff.rfl

@[simp] theorem obeys_bind (p : Program α) (f : α → Program β) (ends : List Exchange → β → Prop)
    (xs : List Exchange) :
    Obeys may ends xs (p >>= f) ↔ Obeys may (fun xs a => Obeys may ends xs (f a)) xs p := by
  induction p generalizing xs with
  | done a => exact Iff.rfl
  | emit signal next ih => exact ih xs
  | await c next ih => exact and_congr_right fun _ => forall_congr' fun answer => ih answer _

/-- A program that ends in a stronger way also ends in a weaker one. -/
theorem Obeys.mono {ends' : List Exchange → α → Prop} (h : ∀ xs a, ends xs a → ends' xs a)
    {p : Program α} {xs : List Exchange} (hp : Obeys may ends xs p) : Obeys may ends' xs p := by
  induction p generalizing xs with
  | done a => exact h xs a hp
  | emit signal next ih => exact ih hp
  | await c next ih => exact ⟨hp.1, fun answer => ih answer (hp.2 answer)⟩

/-- Two contracts about how a program ends are one. -/
theorem Obeys.and {ends' : List Exchange → α → Prop} {p : Program α} {xs : List Exchange}
    (hp : Obeys may ends xs p) (hp' : Obeys (fun _ _ => True) ends' xs p) :
    Obeys may (fun xs a => ends xs a ∧ ends' xs a) xs p := by
  induction p generalizing xs with
  | done a => exact ⟨hp, hp'⟩
  | emit signal next ih => exact ih hp hp'
  | await c next ih => exact ⟨hp.1, fun answer => ih answer (hp.2 answer) (hp'.2 answer)⟩

/-- A run ends as the contract allows. -/
theorem Obeys.run {p : Program α} {xs : List Exchange} (hp : Obeys may ends xs p) (h : Handler σ)
    (s : σ) : ends (xs ++ p.exchanges h s) (p.run h s).1 := by
  induction p generalizing xs s with
  | done a => exact (List.append_nil xs).symm ▸ hp
  | emit signal next ih => exact ih hp _
  | await c next ih =>
    have hends := ih _ (hp.2 (h.answer c s).1) (h.answer c s).2
    rw [List.append_assoc] at hends
    exact hends

/-! ## Up to the next call -/

/-- The program without the signals before its next call. -/
def settled : Program α → Program α
  | emit _ next => settled next
  | p => p

@[simp] theorem obeys_settled (xs : List Exchange) (p : Program α) :
    Obeys may ends xs p.settled ↔ Obeys may ends xs p := by
  induction p with
  | done a => exact Iff.rfl
  | emit signal next ih => exact ih
  | await c next => exact Iff.rfl

end Program

end VideoComments

import VideoComments.Cache.Client
import VideoComments.Proofs.Program
import VideoComments.Repository.Basic

/-!
# Programs over other programs

A program that asks a store and a cache for whole operations can be expanded: `Program.expand` lets
programs that carry these operations out take the place of the calls. A run of the result is a run
of the program with a handler that answers each operation by running what carries it out
(`run_expand`), so that what is said of a program under every handler holds of it over every
repository and every client.
-/

namespace VideoComments.Program

variable {σ α β : Type} (repository : Repository) (client : Cache.Client)

/-- The program with the operations on store and cache carried out by other programs. -/
def expand : Program α → Program α
  | done a => done a
  | emit signal next => emit signal (expand next)
  | await (.store op) next => repository op >>= fun answer => expand (next answer)
  | await (.cache op) next => client op >>= fun answer => expand (next answer)
  | await c next => await c fun answer => expand (next answer)

/-- Answers operations on store and cache by running other programs. -/
def Handler.through (h : Handler σ) : Handler σ where
  answer
    | .store op, s => (repository op).run h s
    | .cache op, s => (client op).run h s
    | c, s => h.answer c s
  receive := h.receive

/-- **Running an expanded program is running the program while others answer it.** -/
theorem run_expand (h : Handler σ) (p : Program α) (s : σ) :
    (p.expand repository client).run h s = p.run (h.through repository client) s := by
  induction p generalizing s with
  | done a => rfl
  | emit signal next ih => exact ih (h.receive signal s)
  | await c next ih =>
    cases c with
    | store op => exact (run_bind h _ _ s).trans (ih _ _)
    | cache op => exact (run_bind h _ _ s).trans (ih _ _)
    | clock | freshId | statement | redis => exact ih _ _

/-! ## Parts of programs -/

/-- Programs one after another may be put together in any order. -/
instance : LawfulMonad Program := LawfulMonad.mk' Program
  (fun p => by
    induction p with
    | done a => rfl
    | emit signal next ih => exact congrArg (emit signal) ih
    | await c next ih => exact congrArg (await c) (funext ih))
  (fun _ _ => rfl)
  (fun p f g => by
    induction p with
    | done a => rfl
    | emit signal next ih => exact congrArg (emit signal) ih
    | await c next ih => exact congrArg (await c) (funext ih))

@[simp] theorem expand_log (level : Level) (message : String) :
    (log level message).expand repository client = log level message := rfl

@[simp] theorem expand_store (op : Operation) :
    (Repository.direct op).expand repository client = repository op :=
  bind_pure (repository op)

@[simp] theorem expand_cache (op : Cache.Operation) :
    (Cache.Client.direct op).expand repository client = client op :=
  bind_pure (client op)

@[simp] theorem expand_bind (p : Program α) (f : α → Program β) :
    (p >>= f).expand repository client =
      p.expand repository client >>= fun a => (f a).expand repository client := by
  induction p with
  | done a => rfl
  | emit signal next ih => exact congrArg (emit signal) ih
  | await c next ih =>
    cases c with
    | store op => exact (congrArg _ (funext ih)).trans (bind_assoc _ _ _).symm
    | cache op => exact (congrArg _ (funext ih)).trans (bind_assoc _ _ _).symm
    | clock | freshId | statement | redis => exact congrArg (await _) (funext ih)

/-- A program is expanded part by part. -/
theorem expand_bind_congr {p q : Program α} {f g : α → Program β}
    (hp : p.expand repository client = q) (hf : ∀ a, (f a).expand repository client = g a) :
    (p >>= f).expand repository client = q >>= g := by
  rw [expand_bind, hp]
  exact congrArg _ (funext hf)

end VideoComments.Program

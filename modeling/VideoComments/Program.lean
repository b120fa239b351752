import VideoComments.Cache.Operation
import VideoComments.Comment.Statement
import VideoComments.Redis.Command
import VideoComments.Repository.Operation
import VideoComments.Signal

/-!
# Programs that await calls

The service is written as programs. A program ends with a value, emits a signal, or awaits the
answer to a call; what lies between two calls happens at once. Programs know nothing of who answers:
one client may run to its end, many may interleave call by call, and the answers may come from any
store and any cache.

* `Program.run` runs a program to its end with a `Handler` that answers its calls.
* `Program.step` runs a program up to its next call, and over it.
-/

namespace VideoComments

/-! ## Calls -/

/-- What a program can wait for. -/
inductive Call
  /-- The time, in milliseconds. -/
  | clock
  /-- An identifier that has not been handed out. -/
  | freshId
  | store (op : Operation)
  | statement (s : Statement)
  | cache (op : Cache.Operation)
  | redis (c : Redis.Command)
  deriving DecidableEq

/-- The answer to a call. -/
@[reducible] def Call.Answer : Call → Type
  | clock => Nat
  | freshId => Uuid
  | store op => Except Failure op.Answer
  | statement s => Except Failure s.Reply
  | cache op => Except Failure op.Answer
  | redis c => Except Failure c.Reply

/-! ## Programs -/

/-- A program that ends with a value of type `α`. -/
inductive Program (α : Type)
  | done (a : α)
  | emit (signal : Signal) (next : Program α)
  | await (call : Call) (next : call.Answer → Program α)

namespace Program

/-- One program after another. -/
def bind {α β : Type} : Program α → (α → Program β) → Program β
  | done a, f => f a
  | emit s next, f => emit s (next.bind f)
  | await c next, f => await c fun answer => (next answer).bind f

instance : Monad Program where
  pure := done
  bind := bind

/-- Waits for the answer to a call. -/
def ask (c : Call) : Program c.Answer := await c done

/-- Writes a line to the log. -/
def log (level : Level) (message : String) : Program Unit := emit (.log ⟨level, message⟩) (done ())

/-! ## Running -/

/-- Who answers calls and receives signals, with a state of type `σ`. -/
structure Handler (σ : Type) where
  answer : (c : Call) → σ → c.Answer × σ
  receive : Signal → σ → σ

/-- Runs a program to its end. -/
def run {σ α : Type} (h : Handler σ) : Program α → σ → α × σ
  | done a, s => (a, s)
  | emit signal next, s => run h next (h.receive signal s)
  | await c next, s =>
    let (answer, s) := h.answer c s
    run h (next answer) s

/-- Delivers the signals that come before the next call. -/
def settle {σ α : Type} (h : Handler σ) : Program α → σ → Program α × σ
  | emit signal next, s => settle h next (h.receive signal s)
  | p, s => (p, s)

/-- Answers one call, if there is one, and delivers the signals that follow it. -/
def step {σ α : Type} (h : Handler σ) : Program α → σ → Program α × σ
  | await c next, s =>
    let (answer, s) := h.answer c s
    settle h (next answer) s
  | p, s => settle h p s

end Program

end VideoComments

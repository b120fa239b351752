import VideoComments.Proofs.Service.Accounting
import VideoComments.Proofs.World
import VideoComments.Rpc.Adapter

/-!
# What the adapter adds to a call

The adapter logs before and after a call of the service and turns a failure into a status
(`call_eq`). So a call through the adapter reports itself as the call of the service does
(`reports_call`), makes the same calls to the store and the cache (`exchanges_call`), and ends alike
in an alike world (`run_call`).
-/

namespace VideoComments.Rpc

open Program
open Service (Reported)
open Signal (OnlyLog)

variable (repository : Repository) (r : Request) (w : World)

/-- What the adapter logs of a call that comes in. -/
def opening : Program Unit :=
  match openingLine? r with
  | some line => log .info line
  | none => pure ()

/-- What the adapter makes of the service's answer. -/
def closing : Except Failure r.Response → Program (Except Status r.Response)
  | .ok response => return .ok response
  | .error e => do
    log .error ("Failed to " ++ undone r ++ ": " ++ e.message)
    return .error (.ofFailure e)

theorem call_eq :
    call repository r = opening r >>= fun _ => Service.call repository r >>= closing r := by
  have hclosing : closing r = fun answer => match answer with
      | .ok response => return .ok response
      | .error e => do
        log .error ("Failed to " ++ undone r ++ ": " ++ e.message)
        return .error (.ofFailure e) := by
    funext answer
    cases answer <;> rfl
  rw [call, opening, hclosing]
  cases openingLine? r <;> rfl

/-! ## Accounts -/

theorem logsOnly_opening : (opening r).LogsOnly := by
  rw [opening]
  cases openingLine? r with
  | some line => exact logsOnly_log _ _
  | none => exact logsOnly_pure _

variable {repository} in
/-- **A call through the adapter reports itself once**, and fails if the service fails. -/
theorem reports_call (h : ∀ op, (repository op).LogsOnly) :
    (call repository r).Reports
      (fun said result => Reported r.method (Service.attributes r) (.of result) said) [] := by
  rw [call_eq, reports_bind]
  refine (logsOnly_opening r).reports Signal.onlyLog_nil fun said _ hsaid => ?_
  rw [reports_bind]
  refine (Service.reports_call h r hsaid).mono fun said result hreported => ?_
  cases result with
  | ok response => exact hreported
  | error e => exact hreported.append_log _

/-! ## Runs -/

theorem run_opening : w.Alike ((opening r).run World.handler w).2 ∧
    (opening r).exchanges World.handler w = [] := by
  rw [opening]
  cases openingLine? r with
  | some line => exact ⟨World.alike_receive _ w, rfl⟩
  | none => exact ⟨.refl w, rfl⟩

theorem run_closing (answer : Except Failure r.Response) :
    ((closing r answer).run World.handler w).1 = answer.mapError Status.ofFailure ∧
      w.Alike ((closing r answer).run World.handler w).2 ∧
      (closing r answer).exchanges World.handler w = [] := by
  cases answer with
  | ok response => exact ⟨rfl, .refl w, rfl⟩
  | error e => exact ⟨rfl, World.alike_receive _ w, rfl⟩

/-- **A call through the adapter ends as the call of the service does**, a failure as its status. -/
theorem run_call :
    ((call repository r).run World.handler w).1 =
        ((Service.call repository r).run World.handler w).1.mapError Status.ofFailure ∧
      ((Service.call repository r).run World.handler w).2.Alike
        ((call repository r).run World.handler w).2 := by
  obtain ⟨hopening, -⟩ := run_opening r w
  obtain ⟨hanswer, halike⟩ := World.run_alike (Service.call repository r) hopening
  rw [call_eq, run_bind, run_bind, hanswer]
  obtain ⟨hclosing, hafter, -⟩ := run_closing r
    ((Service.call repository r).run World.handler ((opening r).run World.handler w).2).2
    ((Service.call repository r).run World.handler ((opening r).run World.handler w).2).1
  exact ⟨hclosing, halike.trans hafter⟩

/-- The adapter makes no calls of its own. -/
theorem exchanges_call :
    (call repository r).exchanges World.handler w =
      (Service.call repository r).exchanges World.handler w := by
  obtain ⟨hopening, hnone⟩ := run_opening r w
  rw [call_eq, exchanges_bind, exchanges_bind, hnone, (run_closing r _ _).2.2, List.append_nil,
    List.nil_append, World.exchanges_alike _ hopening]

end VideoComments.Rpc

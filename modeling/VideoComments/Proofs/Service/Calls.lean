import VideoComments.Proofs.World
import VideoComments.Service.Calls

/-!
# What a call does with the repository

A call asks the repository for what its request says (`Request.operation?`), once, and passes on
what it is answered (`work_of_operation`); or it asks nothing, because there is nothing to ask or
because the identifier in the request is malformed (`work_of_none`). What is said about a call
changes nothing: it answers what its work answers and leaves the world that its work leaves, but for
what has been noted (`run_accounted`).
-/

namespace VideoComments

/-! ## What requests ask for -/

namespace Rpc.Request

/-- The text of the identifier that a request is about, if it is about one comment. -/
def idText? : Request → Option String
  | update m => some m.id
  | delete m => some m.id
  | _ => none

/-- What a request asks the repository for, if it asks for anything. -/
def operation? : Request → Option Operation
  | healthz _ => none
  | list m => some (.list m.video m.limit.toInt m.offset.toInt)
  | create m => some (.create { video := m.video, content := m.content })
  | update m => (Uuid.parse? m.id.toList).map fun id => .update { id, content := m.content }
  | delete m => (Uuid.parse? m.id.toList).map .delete
  | deleteByVideo m => some (.deleteByVideo m.video)

/-- Only a creation creates. -/
theorem eq_create_of_operation? {r : Request} {comment : Comment}
    (h : r.operation? = some (.create comment)) : ∃ m, r = .create m := by
  cases r with
  | create m => exact ⟨m, rfl⟩
  | healthz m | list m | deleteByVideo m => cases h
  | update m | delete m =>
    obtain ⟨id, -, hop⟩ := Option.map_eq_some_iff.1 h
    cases hop

end Rpc.Request

theorem Uuid.ofText_eq_ok {s : String} {id : Uuid} (h : parse? s.toList = some id) :
    ofText s = .ok id := by
  unfold ofText
  rw [h]

theorem Uuid.ofText_eq_error {s : String} (h : parse? s.toList = none) :
    ofText s = .error (diagnose s.toList) := by
  unfold ofText
  rw [h]

namespace Service

open Program Rpc

variable (repository : Repository)

/-! ## What the calls make of the repository's answers -/

theorem work_list (m : ListCommentRequest) :
    work repository (.list m) =
      repository (.list m.video m.limit.toInt m.offset.toInt) >>= fun a => pure (match a with
        | .ok comments => .success { comments := comments.map CommentInfo.ofComment }
            ("Listed " ++ Decimal.ofNat comments.length ++ " comments")
        | .error e => .failure e ("Failed to list comments: " ++ e.message)) :=
  bind_congr fun a => by cases a <;> rfl

theorem work_create (m : CreateCommentRequest) :
    work repository (.create m) =
      repository (.create { video := m.video, content := m.content }) >>= fun a =>
        pure (match a with
          | .ok id => .success { id := id.text } "Comment created successfully"
          | .error e => .failure e ("Failed to create comment: " ++ e.message)) :=
  bind_congr fun a => by cases a <;> rfl

theorem commentId_of_error {text : String} {fault : Uuid.Fault}
    (h : Uuid.ofText text = .error fault) : commentId text = .error (.invalidId text fault) := by
  rw [commentId, h]
  rfl

theorem commentId_of_ok {text : String} {id : Uuid} (h : Uuid.ofText text = .ok id) :
    commentId text = .ok id := by
  rw [commentId, h]
  rfl

theorem work_update_of_error {m : UpdateCommentRequest} {fault : Uuid.Fault}
    (h : Uuid.ofText m.id = .error fault) :
    work repository (.update m) =
      pure (.failure (.invalidId m.id fault) (Failure.invalidId m.id fault).message) := by
  rw [work]
  unfold update
  rw [commentId_of_error h]

theorem work_update_of_ok {m : UpdateCommentRequest} {id : Uuid}
    (h : Uuid.ofText m.id = .ok id) :
    work repository (.update m) =
      repository (.update { id, content := m.content }) >>= fun a => pure (match a with
        | .ok () => .success {} "Comment updated successfully"
        | .error e =>
          .failure e ("Failed to update comment " ++ id.text ++ ": " ++ e.message)) := by
  rw [work]
  unfold update
  rw [commentId_of_ok h]
  exact bind_congr fun a => by cases a <;> rfl

theorem work_delete_of_error {m : DeleteCommentRequest} {fault : Uuid.Fault}
    (h : Uuid.ofText m.id = .error fault) :
    work repository (.delete m) =
      pure (.failure (.invalidId m.id fault) (Failure.invalidId m.id fault).message) := by
  rw [work]
  unfold delete
  rw [commentId_of_error h]

theorem work_delete_of_ok {m : DeleteCommentRequest} {id : Uuid}
    (h : Uuid.ofText m.id = .ok id) :
    work repository (.delete m) =
      repository (.delete id) >>= fun a => pure (match a with
        | .ok () => .success {} "Comment deleted successfully"
        | .error e =>
          .failure e ("Failed to delete comment " ++ id.text ++ ": " ++ e.message)) := by
  rw [work]
  unfold delete
  rw [commentId_of_ok h]
  exact bind_congr fun a => by cases a <;> rfl

theorem work_deleteByVideo (m : DeleteCommentByVideoIdRequest) :
    work repository (.deleteByVideo m) =
      repository (.deleteByVideo m.video) >>= fun a => pure (match a with
        | .ok () => .success {} "Comments of video deleted successfully"
        | .error e => .failure e
            ("Failed to delete comments of video " ++ m.video ++ ": " ++ e.message)) :=
  bind_congr fun a => by cases a <;> rfl


/-- What is made of the repository's answer: a response if it answers, and the same failure if it
fails. -/
structure PassesOn {r : Request} {op : Operation}
    (k : Except Failure op.Answer → Completion r.Response) : Prop where
  ok : ∀ answer, ∃ response, (k (.ok answer)).result = .ok response
  error : ∀ failure, (k (.error failure)).result = .error failure

/-- **A call asks the repository for what its request says**, once, and passes on the answer. -/
theorem work_of_operation {r : Request} {op : Operation} (h : r.operation? = some op) :
    ∃ k : Except Failure op.Answer → Completion r.Response, PassesOn k ∧
      work repository r = repository op >>= fun a => pure (k a) := by
  cases r with
  | healthz m => cases h
  | list m =>
    cases h
    exact ⟨_, ⟨fun _ => ⟨_, rfl⟩, fun _ => rfl⟩, work_list repository m⟩
  | create m =>
    cases h
    exact ⟨_, ⟨fun _ => ⟨_, rfl⟩, fun _ => rfl⟩, work_create repository m⟩
  | update m =>
    obtain ⟨id, hid, rfl⟩ := Option.map_eq_some_iff.1 h
    exact ⟨_, ⟨fun _ => ⟨_, rfl⟩, fun _ => rfl⟩,
      work_update_of_ok repository (Uuid.ofText_eq_ok hid)⟩
  | delete m =>
    obtain ⟨id, hid, rfl⟩ := Option.map_eq_some_iff.1 h
    exact ⟨_, ⟨fun _ => ⟨_, rfl⟩, fun _ => rfl⟩,
      work_delete_of_ok repository (Uuid.ofText_eq_ok hid)⟩
  | deleteByVideo m =>
    cases h
    exact ⟨_, ⟨fun _ => ⟨_, rfl⟩, fun _ => rfl⟩, work_deleteByVideo repository m⟩

/-- **A call that asks nothing answers at once**: that the service is healthy, or that the
identifier is malformed. -/
theorem work_of_none {r : Request} (h : r.operation? = none) :
    ∃ completion, work repository r = pure completion ∧
      (r.idText? = none ∧ (∃ response, completion.result = .ok response) ∨
        ∃ text, r.idText? = some text ∧ Uuid.parse? text.toList = none ∧
          completion.result = .error (.invalidId text (Uuid.diagnose text.toList))) := by
  cases r with
  | healthz m => exact ⟨_, rfl, .inl ⟨rfl, _, rfl⟩⟩
  | list m => cases h
  | create m => cases h
  | update m =>
    have hid := Option.map_eq_none_iff.1 h
    exact ⟨_, work_update_of_error repository (Uuid.ofText_eq_error hid), .inr ⟨_, rfl, hid, rfl⟩⟩
  | delete m =>
    have hid := Option.map_eq_none_iff.1 h
    exact ⟨_, work_delete_of_error repository (Uuid.ofText_eq_error hid), .inr ⟨_, rfl, hid, rfl⟩⟩
  | deleteByVideo m => cases h

/-! ## Runs of calls -/

/-- **Accounting for a call changes neither its answer nor the world**, but for what is noted. -/
theorem run_accounted {α : Type} (method : Method) (attributes : List (String × Attribute))
    (work : Program (Completion α)) (w : World) :
    ((accounted method attributes work).run World.handler w).1 =
        (work.run World.handler w).1.result ∧
      (work.run World.handler w).2.Alike
        ((accounted method attributes work).run World.handler w).2 := by
  have hlog := World.alike_receive (.log ⟨.info, "Starting operation: " ++ method.name⟩) w
  obtain ⟨hresult, hafter⟩ := World.run_alike work hlog
  rw [accounted, Program.run_bind, Program.run_bind, Program.run_bind, Program.run_bind]
  refine ⟨congrArg Completion.result hresult.symm, ?_⟩
  exact hafter.trans (((World.alike_receive (.span _) _).trans
    (World.alike_receive (.log _) _)).trans (World.alike_receive (.request _ _) _))

/-- A call looks at the clock before and after its work. -/
theorem exchanges_accounted {α : Type} (method : Method) (attributes : List (String × Attribute))
    (work : Program (Completion α)) (w : World) :
    (accounted method attributes work).exchanges World.handler w =
      ⟨.clock, w.now⟩ :: (work.exchanges World.handler w ++
        [⟨.clock, (work.run World.handler w).2.now⟩]) := by
  have hlog := World.alike_receive (.log ⟨.info, "Starting operation: " ++ method.name⟩) w
  obtain ⟨-, hafter⟩ := World.run_alike work hlog
  rw [accounted, Program.exchanges_bind, Program.exchanges_bind, Program.exchanges_bind,
    Program.exchanges_bind, World.exchanges_alike work hlog, hafter.now]
  rfl

end Service

end VideoComments

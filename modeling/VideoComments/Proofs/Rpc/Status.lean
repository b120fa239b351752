import VideoComments.Proofs.Rpc.Adapter
import VideoComments.Proofs.Service.Calls
import VideoComments.Proofs.Stack
import VideoComments.Proofs.Uuid.Spelling

/-!
# How calls end, and what failures leave

Which code a call ends with is settled by the identifier in the request, by whether the statement
runs, and by the rows (`Classified.byId`); the cache has no part in it. The status of a call that
fails carries the wording of the failure that the repository or the reader of identifiers produced
(`Classified.source`), and the call leaves rows, counters and pages as they were
(`Classified.spared`). `classified_call` says so of every call through the adapter, over every stack
and in every world whose store fails as stores do.
-/

namespace VideoComments

/-- Does the failure have a cause other than the request? -/
def Failure.IsTechnical : Failure → Prop
  | .commentNotFound => False
  | .invalidId .. => False
  | _ => True

theorem Failure.IsTechnical.code {failure : Failure} (h : failure.IsTechnical) :
    Rpc.Code.ofFailure failure = .internal := by
  cases failure with
  | commentNotFound | invalidId => exact h.elim
  | database | query | cache | internal => rfl

/-! ## Operations on one comment -/

/-- Is there a row with this identifier? -/
def Table.Has (t : Table) (id : Uuid) : Prop := ∃ row ∈ t.rows, row.id = id

theorem Table.not_has_of_count {t : Table} {id : Uuid} (h : t.count (·.id = id) = 0) : ¬ t.Has id :=
  fun ⟨row, hrow, hid⟩ => count_id_eq_zero.1 h row hrow hid

namespace Operation

/-- The identifier of the comment that an operation is about, if it is about one that exists. -/
def target? : Operation → Option Uuid
  | update comment => some comment.id
  | delete id => some id
  | _ => none

/-- An operation on one comment fails if no row has its identifier, and succeeds otherwise. -/
theorem apply_of_target {op : Operation} {id : Uuid} (h : op.target? = some id) (fresh : Uuid)
    (t : Table) :
    ¬ t.Has id ∧ (op.apply fresh t).1 = .error .commentNotFound ∨
      t.Has id ∧ ∃ answer, (op.apply fresh t).1 = .ok answer := by
  cases op with
  | list | create | deleteByVideo => cases h
  | update comment =>
    cases h
    simp only [apply]
    by_cases hcount : t.count (·.id = comment.id) = 0
    · rw [if_pos hcount]
      exact .inl ⟨Table.not_has_of_count hcount, rfl⟩
    · rw [if_neg hcount]
      exact .inr ⟨Table.exists_of_count_id_ne_zero hcount, (), rfl⟩
  | delete id =>
    cases h
    simp only [apply]
    by_cases hcount : t.count (·.id = id) = 0
    · rw [if_pos hcount]
      exact .inl ⟨Table.not_has_of_count hcount, rfl⟩
    · rw [if_neg hcount]
      exact .inr ⟨Table.exists_of_count_id_ne_zero hcount, (), rfl⟩

/-- The other operations fail only on a row that holds no comment. -/
theorem isTechnical_of_apply_error {op : Operation} (h : op.target? = none) {fresh : Uuid}
    {t : Table} {failure : Failure} (herror : (op.apply fresh t).1 = .error failure) :
    failure.IsTechnical := by
  cases op with
  | list video limit offset =>
    simp only [apply, comments] at herror
    cases hrows : (Table.page limit offset (t.ofVideo video)).mapM Row.comment with
    | ok comments => rw [hrows] at herror; cases herror
    | error e => rw [hrows] at herror; cases herror; trivial
  | create | deleteByVideo => cases herror
  | update | delete => cases h

end Operation

theorem Operation.isListing_of_target? {op : Operation} {id : Uuid} (h : op.target? = some id) :
    op.isListing = false := by
  cases op with
  | list | create | deleteByVideo => cases h
  | update | delete => rfl

namespace Rpc

/-! ## What requests about one comment ask for -/

namespace Request

variable {r : Request}

/-- A request with an identifier asks for an operation on that comment, unless the identifier is
malformed. -/
theorem operation?_of_idText? {text : String} (h : r.idText? = some text) :
    Uuid.parse? text.toList = none ∧ r.operation? = none ∨
      ∃ id op, Uuid.parse? text.toList = some id ∧ r.operation? = some op ∧
        op.target? = some id := by
  cases r with
  | healthz | list | create | deleteByVideo => cases h
  | update m | delete m =>
    cases h
    simp only [operation?]
    cases Uuid.parse? m.id.toList with
    | none => exact .inl ⟨rfl, rfl⟩
    | some id => exact .inr ⟨id, _, rfl, rfl, rfl⟩

theorem target?_of_idText? (h : r.idText? = none) {op : Operation} (hop : r.operation? = some op) :
    op.target? = none := by
  cases r with
  | healthz => cases hop
  | list | create | deleteByVideo => cases hop; rfl
  | update | delete => cases h

end Request

/-! ## Runs of calls -/

section Runs

variable (repository : Repository) {r : Request} (w : World)

/-- A call ends as its work does. -/
theorem run_work (r : Request) :
    ((call repository r).run World.handler w).1 =
        ((Service.work repository r).run World.handler w).1.result.mapError Status.ofFailure ∧
      ((Service.work repository r).run World.handler w).2.Alike
        ((call repository r).run World.handler w).2 := by
  obtain ⟨hresult, hbefore⟩ :=
    Service.run_accounted r.method (Service.attributes r) (Service.work repository r) w
  obtain ⟨hanswer, hafter⟩ := run_call repository r w
  rw [Service.call, hresult] at hanswer
  exact ⟨hanswer, hbefore.trans hafter⟩

/-- A call that asks the repository ends as the repository's answer does. -/
theorem run_of_operation {op : Operation} (h : r.operation? = some op) :
    (∀ failure, ((repository op).run World.handler w).1 = .error failure →
        ((call repository r).run World.handler w).1 = .error (.ofFailure failure)) ∧
      (∀ answer, ((repository op).run World.handler w).1 = .ok answer →
        ∃ response, ((call repository r).run World.handler w).1 = .ok response) ∧
      ((repository op).run World.handler w).2.Alike
        ((call repository r).run World.handler w).2 := by
  obtain ⟨k, hk, hwork⟩ := Service.work_of_operation repository h
  obtain ⟨hanswer, halike⟩ := run_work repository w r
  rw [hwork, Program.run_bind, Program.run_pure] at hanswer halike
  refine ⟨fun failure hfailure => ?_, fun answer hok => ?_, halike⟩
  · rw [hanswer, hfailure, hk.error]
    rfl
  · obtain ⟨response, hresponse⟩ := hk.ok answer
    rw [hanswer, hok, hresponse]
    exact ⟨response, rfl⟩

/-- A call that asks nothing answers at once, and looks at nothing but the clock. -/
theorem run_of_none (h : r.operation? = none) :
    (r.idText? = none ∧ (∃ response, ((call repository r).run World.handler w).1 = .ok response) ∨
      ∃ text, r.idText? = some text ∧ ((call repository r).run World.handler w).1 =
        .error (.ofFailure (.invalidId text (Uuid.diagnose text.toList)))) ∧
    w.Alike ((call repository r).run World.handler w).2 ∧
    ∀ x ∈ (call repository r).exchanges World.handler w, x.1 = .clock := by
  obtain ⟨completion, hwork, hcompletion⟩ := Service.work_of_none repository h
  obtain ⟨hanswer, halike⟩ := run_work repository w r
  rw [hwork, Program.run_pure] at hanswer halike
  refine ⟨?_, halike, fun x hx => ?_⟩
  · rcases hcompletion with ⟨htext, response, hresponse⟩ | ⟨text, htext, -, hfailure⟩
    · rw [hresponse] at hanswer
      exact .inl ⟨htext, response, hanswer⟩
    · rw [hfailure] at hanswer
      exact .inr ⟨text, htext, hanswer⟩
  · rw [exchanges_call, Service.call, Service.exchanges_accounted, hwork,
      Program.exchanges_pure, List.nil_append] at hx
    rcases List.mem_cons.1 hx with rfl | hx
    · rfl
    · rw [List.mem_singleton.1 hx]

end Runs

/-! ## Classification -/

/-- The code with which a call ends. -/
def codeOf {α : Type} : Except Status α → Code
  | .ok _ => .ok
  | .error status => status.code

/-- How a request about one comment ends, by the text of its identifier, the failure that its
statement meets, and the table. -/
structure ClassifiedById (text : String) (fault : Option Failure) (t : Table) (code : Code) :
    Prop where
  invalidArgument : code = .invalidArgument ↔ Uuid.parse? text.toList = none
  internal : code = .internal ↔ ∃ id, Uuid.parse? text.toList = some id ∧ fault ≠ none
  notFound : code = .notFound ↔ ∃ id, Uuid.parse? text.toList = some id ∧ fault = none ∧
    ¬ t.Has id
  ok : code = .ok ↔ ∃ id, Uuid.parse? text.toList = some id ∧ fault = none ∧ t.Has id

/-- How a call with the exchanges `xs` ends, and what it leaves of a world. -/
structure Classified (s : Stack) (w : World) (r : Request) (answer : Except Status r.Response)
    (xs : List Exchange) (w' : World) : Prop where
  byId : ∀ text, r.idText? = some text →
    ClassifiedById text (s.store.fault w) w.table (codeOf answer)
  /-- A malformed identifier ends a call before anything is asked of the store or the cache. -/
  unasked : ∀ text, r.idText? = some text → Uuid.parse? text.toList = none →
    ∀ x ∈ xs, x.1 = .clock
  others : r.idText? = none → codeOf answer = .ok ∨ codeOf answer = .internal
  /-- The wording is that of the failure which the reader of identifiers or the repository
  produced. -/
  source : ∀ status, answer = .error status → ∃ failure,
    status = ⟨.ofFailure failure, failure.message⟩ ∧
    ((∃ text, r.idText? = some text ∧ Service.commentId text = .error failure) ∨
      ∃ op, r.operation? = some op ∧ ((s.repository op).run World.handler w).1 = .error failure)
  spared : ∀ status, answer = .error status → Spared r.operation? w w'

variable {s : Stack} {w : World} {r : Request}

/-- The four ends of a request about one comment. -/
theorem codeOf_cases (hstore : ∀ failure, s.store.fault w = some failure → failure.IsTechnical)
    {text : String} (h : r.idText? = some text) {code : Code}
    (hcode : codeOf ((call s.repository r).run World.handler w).1 = code) :
    Uuid.parse? text.toList = none ∧ code = .invalidArgument ∨
      ∃ id, Uuid.parse? text.toList = some id ∧
        (s.store.fault w ≠ none ∧ code = .internal ∨ s.store.fault w = none ∧
          (¬ w.table.Has id ∧ code = .notFound ∨ w.table.Has id ∧ code = .ok)) := by
  rcases Request.operation?_of_idText? h with ⟨hid, hop⟩ | ⟨id, op, hid, hop, htarget⟩
  · obtain ⟨hend, -, -⟩ := run_of_none s.repository w hop
    rcases hend with ⟨hnone, -⟩ | ⟨text', -, hanswer⟩
    · rw [h] at hnone
      cases hnone
    · rw [hanswer] at hcode
      exact .inl ⟨hid, hcode.symm⟩
  · obtain ⟨herror, hok, -⟩ := run_of_operation s.repository w hop
    have hwrite := s.answer_of_write (Operation.isListing_of_target? htarget) w
    refine .inr ⟨id, hid, ?_⟩
    cases hfault : s.store.fault w with
    | some failure =>
      rw [StoreKind.effect, hfault] at hwrite
      rw [herror failure hwrite] at hcode
      exact .inl ⟨Option.some_ne_none _, hcode.symm.trans (hstore failure hfault).code⟩
    | none =>
      rw [StoreKind.effect_of_fault_eq_none hfault] at hwrite
      refine .inr ⟨rfl, ?_⟩
      rcases Operation.apply_of_target htarget w.freshId.1 w.table with
        ⟨habsent, happly⟩ | ⟨hpresent, answer, happly⟩
      · rw [herror _ (hwrite.trans happly)] at hcode
        exact .inl ⟨habsent, hcode.symm⟩
      · obtain ⟨response, hresponse⟩ := hok answer (hwrite.trans happly)
        rw [hresponse] at hcode
        exact .inr ⟨hpresent, hcode.symm⟩

theorem classifiedById (hstore : ∀ failure, s.store.fault w = some failure → failure.IsTechnical)
    {text : String} (h : r.idText? = some text) :
    ClassifiedById text (s.store.fault w) w.table
      (codeOf ((call s.repository r).run World.handler w).1) := by
  generalize hcode : codeOf ((call s.repository r).run World.handler w).1 = code
  rcases codeOf_cases hstore h hcode with ⟨hid, rfl⟩ | ⟨id, hid, hrest⟩
  · constructor <;> simp [hid]
  · rcases hrest with ⟨hfault, rfl⟩ | ⟨hfault, ⟨hrow, rfl⟩ | ⟨hrow, rfl⟩⟩
    · constructor <;> simp [hid, hfault]
    · constructor <;> simp [hid, hfault, hrow]
    · constructor <;> simp [hid, hfault, hrow]

/-- A request that is about no single comment answers, or fails on a technical failure. -/
theorem codeOf_others (hstore : ∀ failure, s.store.fault w = some failure → failure.IsTechnical)
    (h : r.idText? = none) :
    codeOf ((call s.repository r).run World.handler w).1 = .ok ∨
      codeOf ((call s.repository r).run World.handler w).1 = .internal := by
  cases hop : r.operation? with
  | none =>
    obtain ⟨⟨-, response, hanswer⟩ | ⟨text, htext, -⟩, -, -⟩ := run_of_none s.repository w hop
    · rw [hanswer]
      exact .inl rfl
    · rw [h] at htext
      cases htext
  | some op =>
    obtain ⟨herror, hok, -⟩ := run_of_operation s.repository w hop
    cases hrun : ((s.repository op).run World.handler w).1 with
    | ok answer =>
      obtain ⟨response, hanswer⟩ := hok answer hrun
      rw [hanswer]
      exact .inl rfl
    | error failure =>
      have htechnical : failure.IsTechnical := by
        have heffect := (s.refused hrun).1
        cases hfault : s.store.fault w with
        | some due =>
          rw [StoreKind.effect, hfault] at heffect
          cases heffect
          exact hstore failure hfault
        | none =>
          rw [StoreKind.effect_of_fault_eq_none hfault] at heffect
          exact Operation.isTechnical_of_apply_error (Request.target?_of_idText? h hop) heffect
      rw [herror failure hrun]
      exact .inr htechnical.code

/-- A call that fails passes on the failure that it met, and spares the world. -/
theorem refused {status : Status}
    (h : ((call s.repository r).run World.handler w).1 = .error status) :
    (∃ failure, status = ⟨.ofFailure failure, failure.message⟩ ∧
      ((∃ text, r.idText? = some text ∧ Service.commentId text = .error failure) ∨
        ∃ op, r.operation? = some op ∧
          ((s.repository op).run World.handler w).1 = .error failure)) ∧
      Spared r.operation? w ((call s.repository r).run World.handler w).2 := by
  cases hop : r.operation? with
  | none =>
    obtain ⟨hend, halike, -⟩ := run_of_none s.repository w hop
    rcases hend with ⟨-, response, hanswer⟩ | ⟨text, htext, hanswer⟩
    · rw [hanswer] at h
      cases h
    · rw [hanswer] at h
      cases h
      refine ⟨⟨_, rfl, .inl ⟨text, htext, ?_⟩⟩,
        .of_entries_eq halike.table.symm halike.entries.symm⟩
      rcases Request.operation?_of_idText? htext with ⟨hid, -⟩ | ⟨id, op, -, hsome, -⟩
      · exact Service.commentId_of_error (Uuid.ofText_eq_error hid)
      · rw [hop] at hsome
        cases hsome
  | some op =>
    obtain ⟨herror, hok, halike⟩ := run_of_operation s.repository w hop
    cases hrun : ((s.repository op).run World.handler w).1 with
    | ok answer =>
      obtain ⟨response, hanswer⟩ := hok answer hrun
      rw [hanswer] at h
      cases h
    | error failure =>
      rw [herror failure hrun] at h
      cases h
      exact ⟨⟨failure, rfl, .inr ⟨op, rfl, hrun⟩⟩, (s.refused hrun).2.alike halike⟩

/-- **The end of every call is classified, and a call that fails changes nothing.** Over any stack,
in any world whose store fails for technical reasons only, and whatever becomes of the cache: a call
about one comment is refused as invalid exactly if its identifier is malformed, before anything is
asked of the store or the cache; it is an internal error exactly if its statement fails, and the
comment is not found exactly if its statement runs and no row has the identifier. Every other call
answers or is an internal error. The status carries the wording of the failure, and a call that
fails leaves the rows, the counters and the pages. -/
theorem classified_call (s : Stack) (w : World)
    (hstore : ∀ failure, s.store.fault w = some failure → failure.IsTechnical) (r : Request) :
    Classified s w r ((call s.repository r).run World.handler w).1
      ((call s.repository r).exchanges World.handler w)
      ((call s.repository r).run World.handler w).2 where
  byId _ h := classifiedById hstore h
  unasked text h hid := by
    rcases Request.operation?_of_idText? h with ⟨-, hop⟩ | ⟨id, op, hsome, -, -⟩
    · exact (run_of_none s.repository w hop).2.2
    · rw [hid] at hsome
      cases hsome
  others h := codeOf_others hstore h
  source _ h := (refused h).1
  spared _ h := (refused h).2

/-- The next statement does not get a connection in time. -/
def outage : World where
  table := ({} : Table).insert (.numbered 1) "v" "x"
  created := 1
  storeFaults := [some (.database .poolTimedOut)]

/-- A service over a database and a Redis server. -/
def deployed : Stack := ⟨.database, some .redis, .ofSeconds 60⟩

/-- An update of the one comment that there is. -/
def edit : Request := .update { id := (Uuid.numbered 1).text, content := "y" }

/-- An update whose statement fails is an internal error. -/
theorem classified_call_outage :
    (∀ failure, deployed.store.fault outage = some failure → failure.IsTechnical) ∧
    Classified deployed outage edit
      ((call deployed.repository edit).run World.handler outage).1
      ((call deployed.repository edit).exchanges World.handler outage)
      ((call deployed.repository edit).run World.handler outage).2 ∧
    codeOf ((call deployed.repository edit).run World.handler outage).1 = .internal := by
  have hfault : deployed.store.fault outage = some (.database .poolTimedOut) := rfl
  have hstore : ∀ failure, deployed.store.fault outage = some failure → failure.IsTechnical := by
    intro failure h
    rw [hfault] at h
    cases h
    trivial
  have hid : Uuid.parse? (Uuid.numbered 1).text.toList = some (.numbered 1) := by
    rw [Uuid.text, String.toList_ofList, Uuid.parse?_toList]
  have h := classified_call deployed outage hstore edit
  refine ⟨hstore, h, (h.byId _ rfl).internal.2 ⟨_, hid, ?_⟩⟩
  rw [hfault]
  exact Option.some_ne_none _

end Rpc

end VideoComments

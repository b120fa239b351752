import VideoComments.Proofs.Service.Calls
import VideoComments.Stack

/-!
# Calls account for themselves

A program `LogsOnly` if it says nothing but lines of the log; all repositories of the service do
(`Stack.logsOnly_repository`). A program `Reports` if it tells nothing else before it waits no more,
and ends with what its end allows it to have told. Over a repository that only logs, every call
leaves one span and one request, which bear its name and tell how it ended
(`Service.reports_call`).
-/

namespace VideoComments

/-! ## What signals tell besides the log -/

namespace Signal

/-- The span of a signal. -/
def span? : Signal → Option Span
  | span s => some s
  | _ => none

/-- The request of a signal. -/
def request? : Signal → Option (Labels × Double)
  | request labels seconds => some (labels, seconds)
  | _ => none

/-- The spans among signals. -/
def spans (said : List Signal) : List Span := said.filterMap span?

/-- The requests among signals. -/
def requests (said : List Signal) : List (Labels × Double) := said.filterMap request?

@[simp] theorem spans_append (as bs : List Signal) : spans (as ++ bs) = spans as ++ spans bs :=
  List.filterMap_append

@[simp] theorem requests_append (as bs : List Signal) :
    requests (as ++ bs) = requests as ++ requests bs :=
  List.filterMap_append

/-- Nothing but lines of the log. -/
structure OnlyLog (said : List Signal) : Prop where
  spans : spans said = []
  requests : requests said = []

theorem onlyLog_nil : OnlyLog [] := ⟨rfl, rfl⟩

theorem OnlyLog.append_log {said : List Signal} (h : OnlyLog said) (line : LogLine) :
    OnlyLog (said ++ [.log line]) := by
  refine ⟨?_, ?_⟩
  · rw [spans_append, h.spans]
    rfl
  · rw [requests_append, h.requests]
    rfl

end Signal

namespace Program

open Signal (OnlyLog)

variable {α β : Type}

/-! ## Programs that only log -/

/-- The program says nothing but lines of the log, whatever it is answered. -/
def LogsOnly : Program α → Prop
  | done _ => True
  | emit signal next => (∃ line, signal = .log line) ∧ LogsOnly next
  | await _ next => ∀ answer, LogsOnly (next answer)

theorem logsOnly_pure (a : α) : LogsOnly (pure a) := trivial

theorem logsOnly_ask (c : Call) : LogsOnly (ask c) := fun _ => trivial

theorem logsOnly_log (level : Level) (message : String) : LogsOnly (log level message) :=
  ⟨⟨_, rfl⟩, trivial⟩

theorem LogsOnly.bind {p : Program α} {f : α → Program β} (hp : p.LogsOnly)
    (hf : ∀ a, (f a).LogsOnly) : (p >>= f).LogsOnly := by
  induction p with
  | done a => exact hf a
  | emit signal next ih => exact ⟨hp.1, ih hp.2⟩
  | await c next ih => exact fun answer => ih answer (hp answer)

/-- A last line of the log, and the end. -/
theorem logsOnly_log_pure (level : Level) (message : String) (a : α) :
    (log level message >>= fun _ => pure a).LogsOnly :=
  (logsOnly_log level message).bind fun _ => logsOnly_pure a

/-! ## Programs that report at their end -/

/-- Having said `said`, the program waits only while it has said nothing but lines of the log, and
ends only as `ends` allows, whatever it is answered. -/
def Reports (ends : List Signal → α → Prop) : List Signal → Program α → Prop
  | said, done a => ends said a
  | said, emit signal next => Reports ends (said ++ [signal]) next
  | said, await _ next => OnlyLog said ∧ ∀ answer, Reports ends said (next answer)

variable {said : List Signal}

theorem reports_ask {c : Call} {ends : List Signal → c.Answer → Prop} (hsaid : OnlyLog said)
    (hends : ∀ answer, ends said answer) : (ask c).Reports ends said := ⟨hsaid, hends⟩

theorem reports_bind (p : Program α) (f : α → Program β) (ends : List Signal → β → Prop)
    (said : List Signal) :
    (p >>= f).Reports ends said ↔ p.Reports (fun said a => (f a).Reports ends said) said := by
  induction p generalizing said with
  | done a => exact Iff.rfl
  | emit signal next ih => exact ih _
  | await c next ih => exact and_congr_right fun _ => forall_congr' fun answer => ih answer said

/-- A program that ends in a stronger way also ends in a weaker one. -/
theorem Reports.mono {ends ends' : List Signal → α → Prop}
    (h : ∀ said a, ends said a → ends' said a)
    {p : Program α} (hp : p.Reports ends said) : p.Reports ends' said := by
  induction p generalizing said with
  | done a => exact h said a hp
  | emit signal next ih => exact ih hp
  | await c next ih => exact ⟨hp.1, fun answer => ih answer (hp.2 answer)⟩

/-- A program that only logs may wait at any time. -/
theorem LogsOnly.reports {p : Program α} (hp : p.LogsOnly) {ends : List Signal → α → Prop}
    (hsaid : OnlyLog said) (hends : ∀ said a, OnlyLog said → ends said a) :
    p.Reports ends said := by
  induction p generalizing said with
  | done a => exact hends said a hsaid
  | emit signal next ih =>
    obtain ⟨⟨line, rfl⟩, hnext⟩ := hp
    exact ih hnext (hsaid.append_log line)
  | await c next ih => exact ⟨hsaid, fun answer => ih answer (hp answer) hsaid⟩

end Program

/-! ## Repositories -/

namespace Repository

open Program
open Cache (Client)

theorem logsOnly_direct (op : Operation) : (direct op).LogsOnly := logsOnly_ask _

theorem logsOnly_selectPage (video : String) (limit offset : Int) :
    (selectPage video limit offset).LogsOnly := by
  refine (logsOnly_log _ _).bind fun _ => (logsOnly_ask _).bind fun reply => ?_
  cases reply <;> exact logsOnly_pure _

theorem logsOnly_insertComment (comment : Comment) : (insertComment comment).LogsOnly := by
  refine (logsOnly_ask _).bind fun id => (logsOnly_ask _).bind fun reply => ?_
  cases reply with
  | error failure => exact logsOnly_pure _
  | ok _ => exact logsOnly_log_pure _ _ _

theorem logsOnly_updateComment (comment : Comment) : (updateComment comment).LogsOnly := by
  refine (logsOnly_ask _).bind fun reply => ?_
  cases reply with
  | error failure => exact logsOnly_pure _
  | ok affected =>
    simp only
    split <;> exact logsOnly_log_pure _ _ _

theorem logsOnly_deleteComment (id : Uuid) : (deleteComment id).LogsOnly := by
  refine (logsOnly_ask _).bind fun reply => ?_
  cases reply with
  | error failure => exact logsOnly_pure _
  | ok affected =>
    simp only
    split <;> exact logsOnly_log_pure _ _ _

theorem logsOnly_deleteVideo (video : String) : (deleteVideo video).LogsOnly := by
  refine (logsOnly_ask _).bind fun reply => ?_
  cases reply with
  | error failure => exact logsOnly_pure _
  | ok affected => exact logsOnly_log_pure _ _ _

theorem logsOnly_database (op : Operation) : (database op).LogsOnly := by
  cases op with
  | list video limit offset => exact logsOnly_selectPage video limit offset
  | create comment => exact logsOnly_insertComment comment
  | update comment => exact logsOnly_updateComment comment
  | delete id => exact logsOnly_deleteComment id
  | deleteByVideo video => exact logsOnly_deleteVideo video

/-! ### With a cache -/

variable {inner : Repository} {cache : Client}

theorem logsOnly_readCounter (hcache : ∀ op, (cache op).LogsOnly) (key : String) :
    (readCounter cache key).LogsOnly := by
  refine (hcache _).bind fun answer => ?_
  rcases answer with failure | _ | value
  · exact logsOnly_pure _
  · exact logsOnly_pure _
  · simp only
    split <;> exact logsOnly_pure _

theorem logsOnly_pageKey (hcache : ∀ op, (cache op).LogsOnly) (video : String)
    (limit offset : Int) : (pageKey cache video limit offset).LogsOnly := by
  refine LogsOnly.bind ?_ fun counters => ?_
  · refine (logsOnly_readCounter hcache _).bind fun generation => ?_
    cases generation with
    | error failure => exact logsOnly_pure _
    | ok generation =>
      refine (logsOnly_readCounter hcache _).bind fun version => ?_
      cases version <;> exact logsOnly_pure _
  · cases counters with
    | error failure => exact logsOnly_log_pure _ _ _
    | ok counters => exact logsOnly_pure _

theorem logsOnly_cachedPage (hcache : ∀ op, (cache op).LogsOnly) (key : String) :
    (cachedPage cache key).LogsOnly := by
  refine (hcache _).bind fun answer => ?_
  rcases answer with failure | _ | text
  · exact logsOnly_log_pure _ _ _
  · exact logsOnly_pure _
  · simp only
    split
    · exact logsOnly_pure _
    · refine LogsOnly.bind ?_ fun _ => logsOnly_pure _
      refine (logsOnly_log _ _).bind fun _ => (hcache _).bind fun answer => ?_
      cases answer with
      | error failure => exact logsOnly_log _ _
      | ok _ => exact logsOnly_pure _

theorem logsOnly_storePage (hcache : ∀ op, (cache op).LogsOnly) (lifetime : Duration)
    (key : String) (comments : List Comment) :
    (storePage cache lifetime key comments).LogsOnly := by
  refine (hcache _).bind fun answer => ?_
  cases answer with
  | error failure => exact logsOnly_log _ _
  | ok _ => exact logsOnly_pure _

theorem logsOnly_listCached (hinner : ∀ op, (inner op).LogsOnly)
    (hcache : ∀ op, (cache op).LogsOnly) (lifetime : Duration) (video : String)
    (limit offset : Int) : (listCached inner cache lifetime video limit offset).LogsOnly := by
  refine (logsOnly_pageKey hcache video limit offset).bind fun key => ?_
  cases key with
  | none => exact hinner _
  | some key =>
    refine (logsOnly_cachedPage hcache key).bind fun page => ?_
    cases page with
    | some comments => exact logsOnly_pure _
    | none =>
      refine (hinner _).bind fun answer => ?_
      cases answer with
      | error failure => exact logsOnly_pure _
      | ok comments =>
        exact (logsOnly_storePage hcache lifetime key comments).bind fun _ => logsOnly_pure _

theorem logsOnly_writeThrough (hinner : ∀ op, (inner op).LogsOnly)
    (hcache : ∀ op, (cache op).LogsOnly) (op : Operation) :
    (writeThrough inner cache op).LogsOnly := by
  refine (hinner op).bind fun answer => ?_
  cases answer with
  | error failure => exact logsOnly_pure _
  | ok answer =>
    simp only
    split
    · exact logsOnly_pure _
    · refine LogsOnly.bind ((hcache _).bind fun value => ?_) fun _ => logsOnly_pure _
      cases value <;> exact logsOnly_log _ _

theorem logsOnly_cached (hinner : ∀ op, (inner op).LogsOnly)
    (hcache : ∀ op, (cache op).LogsOnly) (lifetime : Duration) (op : Operation) :
    (cached inner cache lifetime op).LogsOnly := by
  cases op with
  | list video limit offset =>
    exact logsOnly_listCached hinner hcache lifetime video limit offset
  | create | update | delete | deleteByVideo => exact logsOnly_writeThrough hinner hcache _

end Repository

open Program in
theorem CacheKind.logsOnly_client (kind : CacheKind) (op : Cache.Operation) :
    (kind.client op).LogsOnly := by
  cases kind with
  | memory => exact logsOnly_ask _
  | redis =>
    cases op with
    | get key =>
      refine (logsOnly_ask _).bind fun reply => ?_
      rcases reply with failure | _ | value
      · exact logsOnly_pure _
      · exact logsOnly_log_pure _ _ _
      · exact logsOnly_pure _
    | set key value lifetime =>
      refine (logsOnly_ask _).bind fun reply => ?_
      cases reply with
      | error failure => exact logsOnly_pure _
      | ok _ => exact logsOnly_log_pure _ _ _
    | delete key => exact logsOnly_ask _
    | increment key => exact logsOnly_ask _

/-- **All repositories of the service only log**, whatever the store and the cache answer. -/
theorem Stack.logsOnly_repository (s : Stack) (op : Operation) : (s.repository op).LogsOnly := by
  have hstore : ∀ op, (s.store.repository op).LogsOnly := by
    cases s.store with
    | memory => exact Repository.logsOnly_direct
    | database => exact Repository.logsOnly_database
  rw [repository]
  cases s.cache with
  | none => exact hstore op
  | some kind => exact Repository.logsOnly_cached hstore kind.logsOnly_client s.lifetime op

/-! ## Calls -/

/-- How a call with this result has ended. -/
def Outcome.of {ε α : Type} : Except ε α → Outcome
  | .ok _ => .success
  | .error _ => .error

namespace Service

open Program Rpc
open Signal (OnlyLog)

theorem Completion.outcome_eq {α : Type} (c : Completion α) : c.outcome = .of c.result := by
  cases h : c.result <;> simp [Completion.outcome, Outcome.of, h]

/-- Besides lines of the log, one span and one request have been told, of this method and with this
outcome. -/
def Reported (method : Method) (attributes : List (String × Attribute)) (outcome : Outcome)
    (said : List Signal) : Prop :=
  ∃ seconds message,
    Signal.spans said =
      [⟨method.name, attributes, [.started method.name, .completed outcome seconds message]⟩] ∧
    Signal.requests said = [(⟨method, outcome⟩, seconds)]

/-- Lines of the log may follow. -/
theorem Reported.append_log {method : Method} {attributes : List (String × Attribute)}
    {outcome : Outcome} {said : List Signal} (h : Reported method attributes outcome said)
    (line : LogLine) : Reported method attributes outcome (said ++ [.log line]) := by
  obtain ⟨seconds, message, hspans, hrequests⟩ := h
  refine ⟨seconds, message, ?_, ?_⟩
  · rw [Signal.spans_append, hspans]
    rfl
  · rw [Signal.requests_append, hrequests]
    rfl

/-- **Work that only logs is accounted for by one span and one request**, whatever comes of it. -/
theorem reports_accounted {α : Type} (method : Method) (attributes : List (String × Attribute))
    {work : Program (Completion α)} (hwork : work.LogsOnly) {said : List Signal}
    (hsaid : OnlyLog said) :
    (accounted method attributes work).Reports
      (fun said result => Reported method attributes (.of result) said) said := by
  rw [accounted, reports_bind]
  refine reports_ask hsaid fun start => ?_
  rw [reports_bind]
  refine (logsOnly_log _ _).reports hsaid fun said _ hsaid => ?_
  rw [reports_bind]
  refine hwork.reports hsaid fun said completion hsaid => ?_
  rw [reports_bind]
  refine reports_ask hsaid fun stop => ?_
  -- The end of a call tells its span and its request at once.
  refine ⟨Double.ofThousandths (stop - start), completion.message, ?_, ?_⟩
  · rw [Completion.outcome_eq]
    simp only [Signal.spans_append, hsaid.spans]
    rfl
  · rw [Completion.outcome_eq]
    simp only [Signal.requests_append, hsaid.requests]
    rfl

/-- The work of a call says nothing of its own. -/
theorem logsOnly_work {repository : Repository} (h : ∀ op, (repository op).LogsOnly)
    (r : Request) : (work repository r).LogsOnly := by
  cases hop : r.operation? with
  | none =>
    obtain ⟨completion, hwork, -⟩ := work_of_none repository hop
    rw [hwork]
    exact logsOnly_pure completion
  | some op =>
    obtain ⟨k, -, hwork⟩ := work_of_operation repository hop
    rw [hwork]
    exact (h op).bind fun answer => logsOnly_pure (k answer)

/-- **A call of the service reports itself once, as what it was.** -/
theorem reports_call {repository : Repository} (h : ∀ op, (repository op).LogsOnly)
    (r : Request) {said : List Signal} (hsaid : OnlyLog said) :
    (call repository r).Reports
      (fun said result => Reported r.method (attributes r) (.of result) said) said :=
  reports_accounted r.method (attributes r) (logsOnly_work h r) hsaid

end Service

end VideoComments

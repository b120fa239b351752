import Mathlib.Logic.Relation
import VideoComments.Proofs.Metrics.Requests
import VideoComments.Proofs.Rpc.Adapter

/-!
# Accounts of all traffic

Any number of calls of the service are under way at once, each made to the service itself or through
the adapter. One after another, a call begins, is answered anything it waits for, or says something
to those who watch. What it says reaches the metrics and the trace at once, in between the signals
of the other calls.

Whenever no call is about to say something, metrics and spans give a true account of the traffic so
far (`Accounted`, `accounted_of_run`): every call that has ended is counted once, under its method
and its outcome, and has left one span.
-/

namespace VideoComments.Traffic

open Program
open Service (Reported)
open Signal (OnlyLog)

/-! ## Calls under way -/

/-- The ways into the service. -/
inductive Entry
  | service
  | adapter
  deriving DecidableEq

namespace Entry

/-- What a call that fails gives back. -/
@[reducible] def Refusal : Entry → Type
  | service => Failure
  | adapter => Rpc.Status

/-- A call by one of the ways. -/
def call (repository : Repository) (r : Rpc.Request) :
    (e : Entry) → Program (Except e.Refusal r.Response)
  | service => Service.call repository r
  | adapter => Rpc.call repository r

end Entry

/-- A call that has begun: what was asked, what it has said so far, and what is left of it. -/
structure Running where
  entry : Entry
  request : Rpc.Request
  said : List Signal
  rest : Program (Except entry.Refusal request.Response)

namespace Running

/-- A call that begins. -/
def start (repository : Repository) (e : Entry) (r : Rpc.Request) : Running :=
  ⟨e, r, [], e.call repository r⟩

/-- How the call has ended, if it has. -/
def outcome? (c : Running) : Option Outcome :=
  match c.rest with
  | .done result => some (.of result)
  | _ => none

/-- The labels of a call that has ended. -/
def labels? (c : Running) : Option Labels := c.outcome?.map (⟨c.request.method, ·⟩)

/-- The call has ended, or waits for an answer. -/
def AtRest (c : Running) : Prop :=
  match c.rest with
  | .emit .. => False
  | _ => True

/-- A call goes on: it is answered anything it waits for, or says something. -/
inductive GoesOn : Running → List Signal → Running → Prop
  | answered {e : Entry} {r : Rpc.Request} {said : List Signal} {c : Call}
      {next : c.Answer → Program (Except e.Refusal r.Response)} (answer : c.Answer) :
      GoesOn ⟨e, r, said, .await c next⟩ [] ⟨e, r, said, next answer⟩
  | tells {e : Entry} {r : Rpc.Request} {said : List Signal} {signal : Signal}
      {next : Program (Except e.Refusal r.Response)} :
      GoesOn ⟨e, r, said, .emit signal next⟩ [signal] ⟨e, r, said ++ [signal], next⟩

/-- The call keeps to its account, whatever it will be answered. -/
def Honest (c : Running) : Prop :=
  c.rest.Reports (fun said result =>
    Reported c.request.method (Service.attributes c.request) (.of result) said) c.said

theorem honest_start {repository : Repository} (h : ∀ op, (repository op).LogsOnly) (e : Entry)
    (r : Rpc.Request) : (start repository e r).Honest := by
  cases e with
  | service => exact Service.reports_call h r Signal.onlyLog_nil
  | adapter => exact Rpc.reports_call r h

variable {c c' : Running} {signals : List Signal}

theorem Honest.goesOn (h : c.Honest) (hstep : c.GoesOn signals c') : c'.Honest := by
  cases hstep with
  | answered answer => exact h.2 answer
  | tells => exact h

theorem GoesOn.said_eq (h : c.GoesOn signals c') : c'.said = c.said ++ signals := by
  cases h with
  | answered answer => exact (List.append_nil _).symm
  | tells => rfl

/-- **A call at rest has said nothing but lines of the log, or has ended and told its one span and
its one request.** -/
theorem Honest.cases (h : c.Honest) (hrest : c.AtRest) :
    (c.outcome? = none ∧ OnlyLog c.said) ∨
      ∃ outcome, c.outcome? = some outcome ∧
        Reported c.request.method (Service.attributes c.request) outcome c.said := by
  obtain ⟨e, r, said, rest⟩ := c
  cases rest with
  | done result => exact .inr ⟨_, rfl, h⟩
  | emit signal next => exact hrest.elim
  | await c next => exact .inl ⟨rfl, h.1⟩

end Running

/-! ## What the world hears -/

/-- The world after one signal after another. -/
def hear (w : World) (signals : List Signal) : World := signals.foldl (fun w s => w.receive s) w

theorem hear_append (w : World) (as bs : List Signal) :
    hear w (as ++ bs) = hear (hear w as) bs := List.foldl_append

theorem metrics_hear (w : World) (signals : List Signal) :
    (hear w signals).metrics = w.metrics.recordAll (Signal.requests signals) := by
  induction signals generalizing w with
  | nil => rfl
  | cons signal signals ih => cases signal <;> exact ih _

theorem spans_hear (w : World) (signals : List Signal) :
    (hear w signals).trace.spans = w.trace.spans ++ Signal.spans signals := by
  induction signals generalizing w with
  | nil => exact (List.append_nil _).symm
  | cons signal signals ih =>
    refine (ih (w.receive signal)).trans ?_
    cases signal with
    | log line => rfl
    | span s => exact List.append_assoc w.trace.spans [s] _
    | request labels seconds => rfl

/-! ## Runs -/

/-- The calls in the order in which they began, and the world that hears what they say. -/
structure State where
  calls : List Running := []
  world : World := {}

variable (repository : Repository)

/-- A call begins, or one of those under way goes on. -/
inductive Step (s : State) : State → Prop
  | begin (e : Entry) (r : Rpc.Request) :
      Step s { s with calls := s.calls ++ [.start repository e r] }
  | goesOn (i : Nat) {c c' : Running} {signals : List Signal} (h : s.calls[i]? = some c)
      (hstep : c.GoesOn signals c') : Step s ⟨s.calls.set i c', hear s.world signals⟩

/-- One state leads to another. -/
abbrev Run : State → State → Prop := Relation.ReflTransGen (Step repository)

/-- The calls keep to their accounts, and the world has heard what they said, in some order. -/
structure Inv (s : State) : Prop where
  honest : ∀ c ∈ s.calls, c.Honest
  heard : ∃ signals, s.world = hear {} signals ∧ signals.Perm (s.calls.flatMap Running.said)

variable {repository} {s s' : State}

theorem inv_empty : Inv {} := ⟨fun _ h => (List.not_mem_nil h).elim, [], rfl, .nil⟩

theorem Inv.step (h : Inv s) (hlogs : ∀ op, (repository op).LogsOnly)
    (hstep : Step repository s s') : Inv s' := by
  obtain ⟨signals, hworld, hperm⟩ := h.heard
  cases hstep with
  | begin e r =>
    refine ⟨fun c hc => ?_, signals, hworld, ?_⟩
    · rcases List.mem_append.1 hc with hc | hc
      · exact h.honest c hc
      · exact List.mem_singleton.1 hc ▸ Running.honest_start hlogs e r
    · rw [List.flatMap_append]
      exact hperm.trans (.of_eq (List.append_nil _).symm)
  | goesOn i hcalls hgoes =>
    next c c' more =>
    have hi : i < s.calls.length := (List.getElem?_eq_some_iff.1 hcalls).1
    have hc : s.calls[i] = c := (List.getElem?_eq_some_iff.1 hcalls).2
    refine ⟨fun d hd => ?_, signals ++ more, ?_, ?_⟩
    · rcases List.mem_or_eq_of_mem_set hd with hd | rfl
      · exact h.honest d hd
      · exact (h.honest c (hc ▸ List.getElem_mem hi)).goesOn hgoes
    · rw [hear_append, ← hworld]
    · -- What one call says more comes last in the world and behind the call's own signals here.
      obtain ⟨before, after, hsplit, -, hset⟩ : ∃ before after,
          s.calls = before ++ s.calls[i] :: after ∧ before.length = i ∧
          s.calls.set i c' = before ++ c' :: after := List.exists_of_set hi
      refine (hperm.append_right more).trans ?_
      rw [hset, hsplit, hc]
      simp only [List.flatMap_append, List.flatMap_cons, hgoes.said_eq, List.append_assoc]
      exact (List.perm_append_comm.append_left _).append_left _

/-- **What a run keeps.** -/
theorem Inv.run (h : Inv s) (hlogs : ∀ op, (repository op).LogsOnly)
    (hrun : Run repository s s') : Inv s' := by
  induction hrun with
  | refl => exact h
  | tail _ hstep ih => exact ih.step hlogs hstep

/-! ## True accounts -/

/-- The number of calls that have ended with these labels. -/
def ended (labels : Labels) (calls : List Running) : Nat :=
  calls.countP fun c => c.labels? = some labels

theorem ended_pos {labels : Labels} {calls : List Running} :
    0 < ended labels calls ↔ ∃ c ∈ calls, c.labels? = some labels := by
  rw [ended, List.countP_pos_iff]
  simp only [decide_eq_true_eq]

/-- The span of a call of this method that has ended so. -/
structure Describes (span : Span) (method : Method) (outcome : Outcome) : Prop where
  name : span.name = method.name
  events : ∃ started completed, span.events = [started, completed] ∧
    started.name = "Operation started" ∧ started.attributes = [("operation", method.name)] ∧
    completed.name = "Operation completed" ∧
    (("status", "SUCCESS") ∈ completed.attributes ↔ outcome = .success)

/-- Metrics and spans give a true account of the calls. -/
structure Accounted (s : State) : Prop where
  /-- A counter is the number of calls that have ended with its labels. -/
  counter : ∀ labels, (s.world.metrics.counters.get? labels).getD 0 = ended labels s.calls
  duration : ∀ labels, (s.world.metrics.durations.get? labels).map Histogram.count =
    s.world.metrics.counters.get? labels
  /-- No label set is there that no call has ended with. -/
  labelSets : ∀ labels, labels ∈ s.world.metrics.counters.labelSets ↔
    ∃ c ∈ s.calls, c.labels? = some labels
  once : s.world.metrics.counters.labelSets.Nodup ∧ s.world.metrics.durations.labelSets.Nodup
  /-- A call that has ended has left one span. -/
  span : ∀ c ∈ s.calls, ∀ outcome, c.outcome? = some outcome →
    ∃ span, Signal.spans c.said = [span] ∧ Describes span c.request.method outcome
  noSpan : ∀ c ∈ s.calls, c.outcome? = none → Signal.spans c.said = []
  /-- There are no other spans. -/
  spans : s.world.trace.spans.Perm (s.calls.flatMap fun c => Signal.spans c.said)

/-- Only a success has the status of one. -/
theorem success_mem_attributes (outcome : Outcome) (seconds : Double) (message : String) :
    ("status", "SUCCESS") ∈ (SpanEvent.completed outcome seconds message).attributes ↔
      outcome = .success := by
  cases outcome <;> simp [SpanEvent.attributes, SpanEvent.status]

theorem exists_span_of_reported {method : Method} {attributes : List (String × Attribute)}
    {outcome : Outcome} {said : List Signal} (h : Reported method attributes outcome said) :
    ∃ span, Signal.spans said = [span] ∧ Describes span method outcome := by
  obtain ⟨seconds, message, hspans, -⟩ := h
  exact ⟨_, hspans, rfl, _, _, rfl, rfl, rfl, rfl, success_mem_attributes outcome seconds message⟩

/-- A call counts once if it has ended with the labels, and not otherwise. -/
theorem count_requests_said {c : Running} (h : c.Honest) (hrest : c.AtRest) (labels : Labels) :
    Metrics.count labels (Signal.requests c.said) = if c.labels? = some labels then 1 else 0 := by
  rcases h.cases hrest with ⟨houtcome, honly⟩ | ⟨outcome, houtcome, seconds, message, -, hrequests⟩
  · rw [honly.requests, Running.labels?, houtcome]
    rfl
  · rw [hrequests, Running.labels?, houtcome, Option.map_some, Metrics.count, List.countP_singleton]
    simp only [decide_eq_true_eq, Option.some.injEq]

theorem count_requests_flatMap {calls : List Running} (h : ∀ c ∈ calls, c.Honest)
    (hrest : ∀ c ∈ calls, c.AtRest) (labels : Labels) :
    Metrics.count labels (Signal.requests (calls.flatMap Running.said)) = ended labels calls := by
  induction calls with
  | nil => rfl
  | cons c calls ih =>
    have hc := count_requests_said (h c List.mem_cons_self) (hrest c List.mem_cons_self) labels
    have hcalls := ih (fun d hd => h d (List.mem_cons_of_mem c hd))
      fun d hd => hrest d (List.mem_cons_of_mem c hd)
    rw [List.flatMap_cons, Signal.requests_append]
    rw [Metrics.count] at hc hcalls ⊢
    rw [List.countP_append, hc, hcalls, ended, ended, List.countP_cons, Nat.add_comm]
    simp only [decide_eq_true_eq]

theorem Inv.accounted (h : Inv s) (hrest : ∀ c ∈ s.calls, c.AtRest) : Accounted s := by
  obtain ⟨signals, hworld, hperm⟩ := h.heard
  have hmetrics : s.world.metrics = Metrics.recordAll {} (Signal.requests signals) := by
    rw [hworld, metrics_hear]
  have hspans : s.world.trace.spans = Signal.spans signals := by
    rw [hworld, spans_hear]
    rfl
  have hcount : ∀ labels, Metrics.count labels (Signal.requests signals) = ended labels s.calls :=
    fun labels => ((hperm.filterMap _).countP_eq _).trans
      (count_requests_flatMap h.honest hrest labels)
  have hcounter : ∀ labels, s.world.metrics.counters.get? labels =
      if ended labels s.calls = 0 then none else some (ended labels s.calls) := fun labels => by
    rw [hmetrics, Metrics.get?_counters_recordAll, hcount]
  refine ⟨fun labels => ?_, fun labels => ?_, fun labels => ?_, ?_, fun c hc outcome houtcome => ?_,
    fun c hc houtcome => ?_, ?_⟩
  · rw [hcounter]
    split
    · next hzero => exact hzero.symm
    · rfl
  · rw [hcounter, hmetrics, Metrics.count_durations_recordAll, hcount]
  · rw [Family.mem_labelSets_iff, hcounter, ← ended_pos, Nat.pos_iff_ne_zero]
    split
    · next hzero => simp [hzero]
    · next hne => simp [hne]
  · rw [hmetrics]
    exact Metrics.nodup_labelSets_recordAll _
  · rcases (h.honest c hc).cases (hrest c hc) with ⟨hnone, -⟩ | ⟨outcome', hsome, hreported⟩
    · rw [hnone] at houtcome
      cases houtcome
    · rw [hsome] at houtcome
      cases houtcome
      exact exists_span_of_reported hreported
  · rcases (h.honest c hc).cases (hrest c hc) with ⟨-, honly⟩ | ⟨outcome', hsome, -⟩
    · exact honly.spans
    · rw [hsome] at houtcome
      cases houtcome
  · rw [hspans]
    refine (hperm.filterMap Signal.span?).trans (.of_eq ?_)
    exact List.filterMap_flatMap

/-- **Every call is accounted for once and truthfully.** Calls of the service and calls through the
adapter overlap in any order, over any repository that says nothing but lines of the log, and
whatever the repository and the cache answer. Whenever no call is about to say something, every call
that has ended has been counted under its method and its outcome, its duration has been observed,
and it has left one span that tells what it was and how it ended; nothing else has been counted. -/
theorem accounted_of_run {repository : Repository} (hlogs : ∀ op, (repository op).LogsOnly)
    {s : State} (hrun : Run repository {} s) (hrest : ∀ c ∈ s.calls, c.AtRest) : Accounted s :=
  (inv_empty.run hlogs hrun).accounted hrest

/-! ### Two calls that overlap -/

/-- What a run after a step leads to, a run from before the step leads to. -/
theorem Step.exists_run {repository : Repository} {s t : State} {P : State → Prop}
    (h : Step repository s t) (hrun : ∃ u, Run repository t u ∧ P u) :
    ∃ u, Run repository s u ∧ P u := by
  obtain ⟨u, hrun, hu⟩ := hrun
  exact ⟨u, .head h hrun, hu⟩

/-- A stack that asks a store and a cache themselves. -/
def inMemory : Stack := ⟨.memory, some .memory, .ofSeconds 60⟩

/-- A store that does not answer in time. -/
def failed : Except Failure Uuid := .error (.database .poolTimedOut)

/-- A comment cannot be stored, while a health check ends and another call has just begun. -/
theorem accounted_of_run_overlapping :
    (∀ op, (inMemory.repository op).LogsOnly) ∧ ∃ s, Run inMemory.repository {} s ∧
      (∀ c ∈ s.calls, c.AtRest) ∧
      s.calls.map Running.labels? =
        [some ⟨.createComment, .error⟩, some ⟨.healthz, .success⟩, none] ∧
      Accounted s := by
  have hlogs := inMemory.logsOnly_repository
  have hevents : ∃ s, Run inMemory.repository {} s ∧ (∀ c ∈ s.calls, c.AtRest) ∧
      s.calls.map Running.labels? =
        [some ⟨.createComment, .error⟩, some ⟨.healthz, .success⟩, none] := by
    refine (Step.begin .adapter (.create { video := "v", content := "x" })).exists_run ?_
    refine (Step.goesOn 0 rfl .tells).exists_run ?_
    refine (Step.goesOn 0 rfl (.answered (0 : Nat))).exists_run ?_
    refine (Step.begin .service (.healthz {})).exists_run ?_
    refine (Step.goesOn 1 rfl (.answered (1 : Nat))).exists_run ?_
    refine (Step.goesOn 0 rfl .tells).exists_run ?_
    refine (Step.goesOn 1 rfl .tells).exists_run ?_
    refine (Step.goesOn 0 rfl (.answered failed)).exists_run ?_
    refine (Step.goesOn 1 rfl (.answered (2 : Nat))).exists_run ?_
    refine (Step.goesOn 0 rfl (.answered (3 : Nat))).exists_run ?_
    refine (Step.goesOn 0 rfl .tells).exists_run ?_
    refine (Step.goesOn 1 rfl .tells).exists_run ?_
    refine (Step.goesOn 0 rfl .tells).exists_run ?_
    refine (Step.goesOn 1 rfl .tells).exists_run ?_
    refine (Step.goesOn 1 rfl .tells).exists_run ?_
    refine (Step.begin .service (.update { id := "7", content := "y" })).exists_run ?_
    refine (Step.goesOn 0 rfl .tells).exists_run ?_
    refine (Step.goesOn 0 rfl .tells).exists_run ?_
    refine ⟨_, .refl, ?_, rfl⟩
    exact List.forall_mem_cons.2 ⟨trivial, List.forall_mem_cons.2 ⟨trivial,
      List.forall_mem_singleton.2 trivial⟩⟩
  obtain ⟨s, hrun, hrest, hlabels⟩ := hevents
  exact ⟨hlogs, s, hrun, hrest, hlabels, accounted_of_run hlogs hrun hrest⟩

end VideoComments.Traffic

import Mathlib.Algebra.BigOperators.Group.List.Basic
import Mathlib.Algebra.GroupWithZero.Nat
import Mathlib.Data.List.Nodup
import Mathlib.Logic.Function.Basic
import VideoComments.Proofs.Cache.Client

/-!
# Calls that interleave

Any number of calls to a repository are under way at once. One event after another comes about: a
call begins, one of the calls under way has its next exchange, a page goes from the cache, or time
passes. Nothing is said of the order. An operation on the cache takes effect or fails without one,
and the store may answer anything.

* `own i events` is the dialogue of one call, its exchanges in their order.
* A repository whose programs obey a contract keeps to it in every run, call by call
  (`Tracked.run`).
-/

namespace VideoComments.Interleaving

/-! ## States and events -/

/-- A call that has begun: its operation, and what is left of its program. -/
structure Running where
  op : Operation
  rest : Program (Except Failure op.Answer)

/-- The calls by their numbers, the cache, and the time. -/
structure State where
  calls : Nat → Option Running := fun _ => none
  entries : Cache.Entries := []
  now : Nat := 0

inductive Event
  | begin (i : Nat) (op : Operation)
  | exchange (i : Nat) (x : Exchange)
  | expire (p : Cache.PageName)
  | tick (milliseconds : Nat)

/-- How a call may be answered, and the cache that the answer leaves. -/
inductive Answers (now : Nat) (es : Cache.Entries) : (c : Call) → c.Answer → Cache.Entries → Prop
  | cache (op : Cache.Operation) :
      Answers now es (.cache op) (op.apply now es).1 (op.apply now es).2
  | failed (op : Cache.Operation) (failure : Failure) :
      Answers now es (.cache op) (.error failure) es
  | store (op : Operation) (answer : Except Failure op.Answer) :
      Answers now es (.store op) answer es

/-- An operation on the cache is answered by what comes of it. -/
theorem Answers.of_apply {now : Nat} {es : Cache.Entries} {op : Cache.Operation}
    {answer : Except Failure op.Answer} (h : (op.apply now es).1 = answer) :
    Answers now es (.cache op) answer (op.apply now es).2 :=
  h ▸ .cache op

/-- A look-up answers what is there. -/
theorem Answers.get {now : Nat} {es : Cache.Entries} {key : String}
    {answer : Except Failure (Option String)}
    (h : (Cache.Operation.apply (.get key) now es).1 = answer) :
    Answers now es (.cache (.get key)) answer es :=
  .of_apply h

/-- The state in which a call has got so far and the cache holds the given entries. -/
def State.set (s : State) (i : Nat) (running : Running) (es : Cache.Entries) : State :=
  { s with calls := Function.update s.calls i (some running), entries := es }

@[simp] theorem State.calls_set_self (s : State) (i : Nat) (running : Running)
    (es : Cache.Entries) : (s.set i running es).calls i = some running :=
  Function.update_self i _ _

@[simp] theorem State.calls_set_of_ne (s : State) {i j : Nat} (h : j ≠ i) (running : Running)
    (es : Cache.Entries) : (s.set i running es).calls j = s.calls j :=
  Function.update_of_ne h _ _

variable (repository : Repository)

/-- One event. Nothing holds a call back: signals are sent at once. -/
inductive Step (s : State) : Event → State → Prop
  | begin {i : Nat} {op : Operation} (h : s.calls i = none) :
      Step s (.begin i op) (s.set i ⟨op, (repository op).settled⟩ s.entries)
  | exchange {i : Nat} {op : Operation} {c : Call}
      {next : c.Answer → Program (Except Failure op.Answer)} {answer : c.Answer}
      {es : Cache.Entries} (h : s.calls i = some ⟨op, .await c next⟩)
      (hanswer : Answers s.now s.entries c answer es) :
      Step s (.exchange i ⟨c, answer⟩) (s.set i ⟨op, (next answer).settled⟩ es)
  | expire (p : Cache.PageName) : Step s (.expire p) { s with entries := s.entries.erase p.key }
  | tick (milliseconds : Nat) : Step s (.tick milliseconds) { s with now := s.now + milliseconds }

variable {repository} in
/-- An operation on the cache has one of its outcomes. -/
theorem Step.outcome {s s' : State} {i : Nat} {op : Cache.Operation}
    {answer : Except Failure op.Answer}
    (hs : Step repository s (.exchange i ⟨.cache op, answer⟩) s') :
    op.Outcome s.now s.entries answer s'.entries := by
  cases hs with
  | exchange hi hanswer =>
    cases hanswer with
    | cache => exact Cache.Operation.outcome_apply op s.now s.entries
    | failed op failure => exact .failed failure

/-- A run: events, one after another. -/
inductive Run : State → List Event → State → Prop
  | nil (s : State) : Run s [] s
  | cons {s t u : State} {e : Event} {es : List Event} (hs : Step repository s e t)
      (hr : Run t es u) : Run s (e :: es) u

variable {repository}

theorem Run.append {s t u : State} {as bs : List Event} (ha : Run repository s as t)
    (hb : Run repository t bs u) : Run repository s (as ++ bs) u := by
  induction ha with
  | nil => exact hb
  | cons hs _ ih => exact .cons hs (ih hb)

theorem run_append {s u : State} {as bs : List Event} :
    Run repository s (as ++ bs) u ↔ ∃ t, Run repository s as t ∧ Run repository t bs u := by
  refine ⟨fun h => ?_, fun ⟨t, ha, hb⟩ => ha.append hb⟩
  induction as generalizing s with
  | nil => exact ⟨s, .nil s, h⟩
  | cons a as ih =>
    cases h with
    | cons hs hr =>
      obtain ⟨t, ha, hb⟩ := ih hr
      exact ⟨t, .cons hs ha, hb⟩

/-- The states around an event of a run. -/
theorem Run.split {s u : State} {as bs : List Event} {e : Event}
    (h : Run repository s (as ++ e :: bs) u) :
    ∃ t t', Run repository s as t ∧ Step repository t e t' ∧ Run repository t' bs u := by
  obtain ⟨t, ha, hb⟩ := run_append.1 h
  cases hb with
  | cons hs hr => exact ⟨t, _, ha, hs, hr⟩

/-! ## The dialogue of one call -/

/-- The exchange that an event is for a call. -/
def Event.of (i : Nat) : Event → Option Exchange
  | .exchange j x => if j = i then some x else none
  | _ => none

/-- The exchanges of one call. -/
def own (i : Nat) (es : List Event) : List Exchange := es.filterMap (Event.of i)

theorem event_of_eq_some {i : Nat} {e : Event} {x : Exchange} :
    e.of i = some x ↔ e = .exchange i x := by
  cases e with
  | exchange j y =>
    by_cases h : j = i
    · simp [Event.of, h]
    · simp [Event.of, h]
  | begin | expire | tick => simp [Event.of]

theorem mem_own {i : Nat} {es : List Event} {x : Exchange} :
    x ∈ own i es ↔ .exchange i x ∈ es := by
  rw [own, List.mem_filterMap]
  refine ⟨fun ⟨e, he, hx⟩ => ?_, fun h => ⟨_, h, event_of_eq_some.2 rfl⟩⟩
  rw [← event_of_eq_some.1 hx]
  exact he

@[simp] theorem own_nil (i : Nat) : own i [] = [] := rfl

@[simp] theorem own_append (i : Nat) (as bs : List Event) :
    own i (as ++ bs) = own i as ++ own i bs :=
  List.filterMap_append

theorem own_exchange (i : Nat) (x : Exchange) : own i [.exchange i x] = [x] := by
  simp [own, Event.of]

theorem own_exchange_of_ne {i j : Nat} (h : j ≠ i) (x : Exchange) : own i [.exchange j x] = [] := by
  simp [own, Event.of, h]

/-- What stands before an exchange in a dialogue stands before it in the run. -/
theorem exists_split_of_own {i : Nat} {es : List Event} {xs ys : List Exchange} {x : Exchange}
    (h : own i es = xs ++ x :: ys) :
    ∃ as bs, es = as ++ .exchange i x :: bs ∧ own i as = xs := by
  obtain ⟨as, rest, rfl, has, hrest⟩ := List.filterMap_eq_append_iff.1 h
  obtain ⟨cs, e, bs, rfl, hcs, he, -⟩ := List.filterMap_eq_cons_iff.1 hrest
  refine ⟨as ++ cs, bs, ?_, ?_⟩
  · rw [event_of_eq_some.1 he, List.append_assoc]
  · rw [own_append, own, has, own, List.filterMap_eq_nil_iff.2 hcs, List.append_nil]

/-! ## The dialogues of all calls -/

/-- The exchange that an event is for some call. -/
def Event.exchange? : Event → Option Exchange
  | .exchange _ x => some x
  | _ => none

/-- The exchanges of all calls, in the order in which they came about. -/
def exchanges (es : List Event) : List Exchange := es.filterMap Event.exchange?

/-- The call that an event begins, with its operation. -/
def Event.begun? : Event → Option (Nat × Operation)
  | .begin i op => some (i, op)
  | _ => none

/-- The calls that have begun. -/
def begun (es : List Event) : List (Nat × Operation) := es.filterMap Event.begun?

@[simp] theorem exchanges_append (as bs : List Event) :
    exchanges (as ++ bs) = exchanges as ++ exchanges bs :=
  List.filterMap_append

@[simp] theorem begun_append (as bs : List Event) : begun (as ++ bs) = begun as ++ begun bs :=
  List.filterMap_append

theorem mem_begun {i : Nat} {op : Operation} {es : List Event} :
    (i, op) ∈ begun es ↔ .begin i op ∈ es := by
  rw [begun, List.mem_filterMap]
  refine ⟨fun ⟨e, he, hbegun⟩ => ?_, fun h => ⟨_, h, rfl⟩⟩
  cases e with
  | begin => cases hbegun; exact he
  | exchange | expire | tick => cases hbegun

/-- **What all calls have exchanged is what each has exchanged, taken together.** -/
theorem countP_exchanges (p : Exchange → Bool) {ids : List Nat} (hids : ids.Nodup)
    {es : List Event} (hmem : ∀ i x, .exchange i x ∈ es → i ∈ ids) :
    (exchanges es).countP p = (ids.map fun i => (own i es).countP p).sum := by
  induction es with
  | nil => simp [exchanges]
  | cons e es ih =>
    have ih := ih fun i x hx => hmem i x (List.mem_cons_of_mem e hx)
    cases e with
    | begin | expire | tick => exact ih
    | exchange j x =>
      -- One call has one exchange more, and that call is in the list once.
      have hj : j ∈ ids := hmem j x List.mem_cons_self
      have hown : ∀ i, (own i (.exchange j x :: es)).countP p =
          (own i [.exchange j x]).countP p + (own i es).countP p := fun i => by
        rw [← List.countP_append, ← own_append, List.singleton_append]
      have hone : (ids.map fun i => (own i [.exchange j x]).countP p).sum = [x].countP p := by
        rw [List.sum_map_eq_nsmul_single j _ fun i hi _ => by rw [own_exchange_of_ne hi.symm]; rfl,
          List.count_eq_one_of_mem hids hj, one_nsmul, own_exchange]
      have hall : exchanges (.exchange j x :: es) = [x] ++ exchanges es := rfl
      simp only [hown, List.sum_map_add]
      rw [hone, hall, List.countP_append, ih]

/-- The calls that are under way or have ended are those that have begun, and none began twice. -/
structure Registered (es : List Event) (s : State) : Prop where
  nodup : ((begun es).map Prod.fst).Nodup
  begun_iff : ∀ i op, .begin i op ∈ es ↔ (s.calls i).map Running.op = some op

theorem registered_nil {s : State} (h : ∀ i, s.calls i = none) : Registered [] s :=
  ⟨List.nodup_nil, fun i op => by simp [h i]⟩

namespace Registered

variable {s s' : State} {es : List Event} {e : Event}

/-- Events that begin no call change nothing, for no call changes its operation. -/
theorem of_not_begin (h : Registered es s) (hbegin : e.begun? = none)
    (hcalls : ∀ i, (s'.calls i).map Running.op = (s.calls i).map Running.op) :
    Registered (es ++ [e]) s' := by
  have hbegun : begun (es ++ [e]) = begun es := by
    rw [begun_append, begun, begun, List.filterMap_cons_none hbegin, List.filterMap_nil,
      List.append_nil]
  refine ⟨hbegun ▸ h.nodup, fun i op => ?_⟩
  rw [hcalls, ← h.begun_iff, ← mem_begun, ← mem_begun, hbegun]

/-- What one event preserves. -/
theorem step (h : Registered es s) (hs : Step repository s e s') : Registered (es ++ [e]) s' := by
  cases hs with
  | expire p => exact h.of_not_begin rfl fun _ => rfl
  | tick milliseconds => exact h.of_not_begin rfl fun _ => rfl
  | @exchange i op c next answer entries hi hanswer =>
    refine h.of_not_begin rfl fun j => ?_
    by_cases hij : j = i
    · subst hij
      simp [hi]
    · rw [State.calls_set_of_ne s hij]
  | @begin i op hi =>
    have hfresh : ∀ op', .begin i op' ∉ es := by
      intro op' hmem
      rw [h.begun_iff, hi] at hmem
      cases hmem
    refine ⟨?_, fun j op' => ?_⟩
    · rw [begun_append, List.map_append, List.nodup_append]
      refine ⟨h.nodup, List.nodup_singleton _, fun j hj k hk hjk => ?_⟩
      obtain ⟨⟨j, op'⟩, hmem, rfl⟩ := List.mem_map.1 hj
      have hji : j = i := hjk.trans (List.mem_singleton.1 hk)
      exact hfresh op' (hji ▸ mem_begun.1 hmem)
    · rw [List.mem_append, List.mem_singleton, h.begun_iff]
      by_cases hij : j = i
      · subst hij
        simp [hi, eq_comm]
      · simp [hij]

end Registered

/-! ## Contracts -/

variable {may : Operation → List Exchange → Call → Prop}
  {ends : (op : Operation) → List Exchange → Except Failure op.Answer → Prop}

/-- Every call has kept to its contract in the events so far. -/
structure Tracked (may : Operation → List Exchange → Call → Prop)
    (ends : (op : Operation) → List Exchange → Except Failure op.Answer → Prop)
    (es : List Event) (s : State) : Prop where
  fresh : ∀ i, s.calls i = none → own i es = []
  begun : ∀ i op, .begin i op ∈ es → ∃ p, s.calls i = some ⟨op, p⟩
  obeys : ∀ i op p, s.calls i = some ⟨op, p⟩ → p.Obeys (may op) (ends op) (own i es)

theorem tracked_nil {s : State} (h : ∀ i, s.calls i = none) : Tracked may ends [] s := by
  refine ⟨fun i _ => rfl, fun i op hmem => (by cases hmem), fun i op p hp => ?_⟩
  rw [h i] at hp
  cases hp

namespace Tracked

variable {s s' : State} {es : List Event} {e : Event}

/-- Events of no call change nothing. -/
theorem of_calls_eq (h : Tracked may ends es s) (hcalls : s'.calls = s.calls)
    (hown : ∀ i, own i [e] = []) (hbegin : ∀ i op, e ≠ .begin i op) :
    Tracked may ends (es ++ [e]) s' := by
  have heq : ∀ i, own i (es ++ [e]) = own i es := fun i => by
    rw [own_append, hown, List.append_nil]
  refine ⟨fun i hi => ?_, fun i op hmem => ?_, fun i op p hp => ?_⟩
  · rw [hcalls] at hi
    rw [heq]
    exact h.fresh i hi
  · rw [hcalls]
    rcases List.mem_append.1 hmem with hmem | hmem
    · exact h.begun i op hmem
    · exact absurd (List.mem_singleton.1 hmem).symm (hbegin i op)
  · rw [hcalls] at hp
    rw [heq]
    exact h.obeys i op p hp

/-- An event of one call changes that call alone. -/
theorem set (h : Tracked may ends es s) {i : Nat} {op : Operation}
    {p : Program (Except Failure op.Answer)} {entries : Cache.Entries}
    (hown : ∀ j ≠ i, own j [e] = []) (hbegin : ∀ j op', e = .begin j op' → j = i ∧ op' = op)
    (hop : ∀ op' p', s.calls i = some ⟨op', p'⟩ → op' = op)
    (hp : p.Obeys (may op) (ends op) (own i (es ++ [e]))) :
    Tracked may ends (es ++ [e]) (s.set i ⟨op, p⟩ entries) := by
  have heq : ∀ j ≠ i, own j (es ++ [e]) = own j es := fun j hj => by
    rw [own_append, hown j hj, List.append_nil]
  refine ⟨fun j hj => ?_, fun j op' hmem => ?_, fun j op' p' hp' => ?_⟩
  · by_cases hij : j = i
    · rw [hij, State.calls_set_self] at hj
      cases hj
    · rw [State.calls_set_of_ne s hij] at hj
      rw [heq j hij]
      exact h.fresh j hj
  · by_cases hij : j = i
    · have hop' : op' = op := by
        rcases List.mem_append.1 hmem with hmem | hmem
        · obtain ⟨p', hp'⟩ := h.begun j op' hmem
          exact hop op' p' (hij ▸ hp')
        · exact (hbegin j op' (List.mem_singleton.1 hmem).symm).2
      subst hop' hij
      exact ⟨p, State.calls_set_self s j _ _⟩
    · have hmem : .begin j op' ∈ es := by
        refine (List.mem_append.1 hmem).resolve_right fun hmem => ?_
        exact hij (hbegin j op' (List.mem_singleton.1 hmem).symm).1
      rw [State.calls_set_of_ne s hij]
      exact h.begun j op' hmem
  · by_cases hij : j = i
    · subst hij
      rw [State.calls_set_self] at hp'
      cases hp'
      exact hp
    · rw [State.calls_set_of_ne s hij] at hp'
      rw [heq j hij]
      exact h.obeys j op' p' hp'

/-- What one event preserves. -/
theorem step (h : Tracked may ends es s)
    (hrepository : ∀ op, (repository op).Obeys (may op) (ends op) [])
    (hs : Step repository s e s') :
    Tracked may ends (es ++ [e]) s' := by
  cases hs with
  | @begin i op hi =>
    refine h.set (fun _ _ => rfl) (fun j op' he => ?_) (fun op' p hp => ?_) ?_
    · cases he
      exact ⟨rfl, rfl⟩
    · rw [hi] at hp
      cases hp
    · have hown : own i (es ++ [.begin i op]) = [] := by
        rw [own_append, h.fresh i hi]
        rfl
      rw [hown, Program.obeys_settled]
      exact hrepository op
  | @exchange i op c next answer entries hi hanswer =>
    refine h.set (fun j hj => own_exchange_of_ne hj.symm _) (fun j op' he => by cases he)
      (fun op' p hp => ?_) ?_
    · rw [hi] at hp
      cases hp
      rfl
    · rw [own_append, own_exchange, Program.obeys_settled]
      exact (h.obeys i op _ hi).2 answer
  | expire p => exact h.of_calls_eq rfl (fun _ => rfl) fun _ _ he => by cases he
  | tick milliseconds => exact h.of_calls_eq rfl (fun _ => rfl) fun _ _ he => by cases he

/-- A call that has an exchange was allowed to make it. -/
theorem allowed (h : Tracked may ends es s) {i : Nat} {op : Operation} (hop : .begin i op ∈ es)
    {c : Call} {answer : c.Answer} (hs : Step repository s (.exchange i ⟨c, answer⟩) s') :
    may op (own i es) c := by
  obtain ⟨p, hp⟩ := h.begun i op hop
  cases hs with
  | exchange hi _ =>
    rw [hi] at hp
    cases hp
    exact (h.obeys i op _ hi).1

end Tracked

end VideoComments.Interleaving

import Mathlib.Logic.Function.Basic
import VideoComments.Proofs.Repository.Basic
import VideoComments.Proofs.Service.Calls
import VideoComments.Proofs.Uuid.Spelling

/-!
# The service as a board of comments

Callers see the service as a board: for every video the list of its comments, each an identifier and
a content. `Shows` says that the full listings of the service are those of a board, and `Serves`
says what each request answers and what it makes of a board. On a sound table the service does what
`Serves` says (`call_serves`), and every table that calls lead to is sound (`Reachable.sound`).
-/

namespace VideoComments

/-- The same world with a store that does not fail. -/
def World.calm (w : World) : World := { w with storeFaults := [], database := .up }

namespace Service

open Rpc

/-! ## Boards -/

/-- For every video the identifiers and contents of its comments, in their order. -/
abbrev Board := String → List (String × String)

/-- The service lists every video, without limit and offset, as the board has it, when the store
does not fail. -/
def Shows (store : StoreKind) (w : World) (b : Board) : Prop :=
  ∀ video, ∃ response : ListCommentResponse,
    ((call store.repository (.list { video, limit := 0, offset := 0 })).run World.handler
      w.calm).1 = .ok response ∧
    response.comments.map (fun c => (c.id, c.content)) = b video

/-- What a request answers, and what it makes of a board. -/
inductive Serves (b : Board) : (r : Request) → Except Failure r.Response → Board → Prop
  | healthz {m : HealthzRequest} : Serves b (.healthz m) (.ok { status := "ok" }) b
  | list {m : ListCommentRequest} {response : ListCommentResponse}
      (h : response.comments.map (fun c => (c.id, c.content)) =
        Table.page m.limit.toInt m.offset.toInt (b m.video)) :
      Serves b (.list m) (.ok response) b
  /-- A new comment comes last, under an identifier that no comment has. -/
  | create {m : CreateCommentRequest} {id : String}
      (hnew : ∀ video content, (id, content) ∉ b video) :
      Serves b (.create m) (.ok { id })
        (Function.update b m.video (b m.video ++ [(id, m.content)]))
  /-- A comment keeps its video and its position. -/
  | update {m : UpdateCommentRequest} {id : Uuid} {video old : String}
      {before after : List (String × String)} (hid : Uuid.ofText m.id = .ok id)
      (h : b video = before ++ (id.text, old) :: after) :
      Serves b (.update m) (.ok {})
        (Function.update b video (before ++ (id.text, m.content) :: after))
  | updateAbsent {m : UpdateCommentRequest} {id : Uuid} (hid : Uuid.ofText m.id = .ok id)
      (h : ∀ video content, (id.text, content) ∉ b video) :
      Serves b (.update m) (.error .commentNotFound) b
  | updateMalformed {m : UpdateCommentRequest} {fault : Uuid.Fault}
      (hid : Uuid.ofText m.id = .error fault) :
      Serves b (.update m) (.error (.invalidId m.id fault)) b
  /-- The other comments keep their order. -/
  | delete {m : DeleteCommentRequest} {id : Uuid} {video old : String}
      {before after : List (String × String)} (hid : Uuid.ofText m.id = .ok id)
      (h : b video = before ++ (id.text, old) :: after) :
      Serves b (.delete m) (.ok {}) (Function.update b video (before ++ after))
  | deleteAbsent {m : DeleteCommentRequest} {id : Uuid} (hid : Uuid.ofText m.id = .ok id)
      (h : ∀ video content, (id.text, content) ∉ b video) :
      Serves b (.delete m) (.error .commentNotFound) b
  | deleteMalformed {m : DeleteCommentRequest} {fault : Uuid.Fault}
      (hid : Uuid.ofText m.id = .error fault) :
      Serves b (.delete m) (.error (.invalidId m.id fault)) b
  /-- Succeeds whether or not there is anything to delete. -/
  | deleteByVideo {m : DeleteCommentByVideoIdRequest} :
      Serves b (.deleteByVideo m) (.ok {}) (Function.update b m.video [])

/-! ## The board of a table -/

/-- A row as it stands on the board. -/
def entry (r : Row) : String × String := (r.id.text, r.content.getD "")

/-- The board of a table. -/
def boardOf (t : Table) : Board := fun video => (t.ofVideo video).map entry

/-- An identifier is on the board if its row is in the table. -/
theorem mem_boardOf {t : Table} {video content : String} {id : Uuid}
    (h : (id.text, content) ∈ boardOf t video) : ∃ r ∈ t.rows, r.id = id := by
  obtain ⟨r, hr, heq⟩ := List.mem_map.1 h
  exact ⟨r, (Table.mem_ofVideo.1 hr).1, Uuid.text_injective (Prod.mk.inj heq).1⟩

theorem notMem_boardOf {t : Table} {id : Uuid} (h : ∀ r ∈ t.rows, r.id ≠ id)
    (video content : String) : (id.text, content) ∉ boardOf t video := by
  intro hmem
  obtain ⟨r, hr, hid⟩ := mem_boardOf hmem
  exact h r hr hid

variable {t : Table}

theorem boardOf_insert (h : t.Sound) {id : Uuid} (hid : ∀ r ∈ t.rows, r.id ≠ id)
    (video content : String) :
    boardOf (t.insert id video content) =
      Function.update (boardOf t) video (boardOf t video ++ [(id.text, content)]) := by
  funext other
  by_cases hother : other = video
  · subst hother
    rw [Function.update_self, boardOf, h.ofVideo_insert hid, List.map_append]
    rfl
  · rw [Function.update_of_ne hother, boardOf, t.ofVideo_insert_of_ne hother, boardOf]

/-- A row stands once on the board, under its own video. What becomes of it alone changes the board
there alone. -/
theorem exists_boardOf_eq (h : t.Sound) {r : Row} (hr : r ∈ t.rows) {f : Row → Option Row}
    (hf : ∀ s, s.id ≠ r.id → f s = some s) :
    ∃ before after, boardOf t r.video = before ++ entry r :: after ∧
      ∀ t' : Table, (∀ video, t'.ofVideo video = (t.ofVideo video).filterMap f) →
        boardOf t' = Function.update (boardOf t) r.video
          (before ++ ((f r).map entry).toList ++ after) := by
  obtain ⟨as, bs, hsplit, hids⟩ := h.exists_split hr
  have hkeep : ∀ rows : List Row, (∀ s ∈ rows, s.id ≠ r.id) → rows.filterMap f = rows :=
    fun rows hrows => by
      rw [List.filterMap_congr fun s hs => hf s (hrows s hs), List.filterMap_some]
  refine ⟨as.map entry, bs.map entry, ?_, fun t' ht' => ?_⟩
  · rw [boardOf, hsplit, List.map_append, List.map_cons]
  · funext video
    rw [boardOf, ht']
    by_cases hvideo : video = r.video
    · subst hvideo
      have has := hkeep as fun s hs => hids s (List.mem_append_left bs hs)
      have hbs := hkeep bs fun s hs => hids s (List.mem_append_right as hs)
      rw [Function.update_self, hsplit, List.filterMap_append, List.filterMap_cons, has, hbs]
      cases f r with
      | none => simp
      | some r' => simp
    · have hrows := hkeep (t.ofVideo video) fun s hs heq => hvideo <| by
        obtain ⟨hs, hsvideo⟩ := Table.mem_ofVideo.1 hs
        rw [← hsvideo, h.eq_of_id_eq hs hr heq]
      rw [Function.update_of_ne hvideo, hrows, boardOf]

theorem exists_boardOf_setContent (h : t.Sound) {r : Row} (hr : r ∈ t.rows) (content : String) :
    ∃ before after, boardOf t r.video = before ++ entry r :: after ∧
      boardOf (t.setContent r.id content) = Function.update (boardOf t) r.video
        (before ++ (r.id.text, content) :: after) := by
  obtain ⟨before, after, hsplit, hboard⟩ := exists_boardOf_eq h hr
    (f := fun s => some (if s.id = r.id then { s with content := some content } else s))
    fun s hs => by rw [if_neg hs]
  refine ⟨before, after, hsplit, ?_⟩
  rw [hboard (t.setContent r.id content) fun video => ?_]
  · rw [if_pos rfl, List.append_assoc]
    rfl
  · rw [t.ofVideo_setContent, List.filterMap_eq_map']

theorem exists_boardOf_remove (h : t.Sound) {r : Row} (hr : r ∈ t.rows) :
    ∃ before after, boardOf t r.video = before ++ entry r :: after ∧
      boardOf (t.remove fun s => s.id = r.id) =
        Function.update (boardOf t) r.video (before ++ after) := by
  obtain ⟨before, after, hsplit, hboard⟩ := exists_boardOf_eq h hr
    (f := Option.guard fun s => !decide (s.id = r.id)) fun s hs => by simp [Option.guard, hs]
  refine ⟨before, after, hsplit, ?_⟩
  rw [hboard (t.remove fun s => s.id = r.id) fun video => ?_]
  · simp [Option.guard]
  · rw [h.ofVideo_remove, List.filterMap_eq_filter]

theorem boardOf_removeVideo (t : Table) (video : String) :
    boardOf (t.remove fun r => r.video = video) = Function.update (boardOf t) video [] := by
  funext other
  by_cases hother : other = video
  · subst hother
    rw [Function.update_self, boardOf, t.ofVideo_removeVideo, List.map_nil]
  · rw [Function.update_of_ne hother, boardOf, t.ofVideo_removeVideo_of_ne hother, boardOf]

/-! ## Runs of calls -/

variable {store : StoreKind} {w : World}

/-- A call that asks the repository once. -/
theorem call_of_ask (w : World) {r : Request} {op : Operation}
    (k : Except Failure op.Answer → Completion r.Response)
    (hwork : work store.repository r = store.repository op >>= fun a => pure (k a)) :
    ((call store.repository r).run World.handler w).1 = (k (store.effect op w).1).result ∧
      ((call store.repository r).run World.handler w).2.table = (store.effect op w).2 := by
  obtain ⟨hresult, halike⟩ := run_accounted r.method (attributes r) (work store.repository r) w
  have hdoes := store.repository_does op w
  rw [call, hresult, ← halike.table, hwork, Program.run_bind, Program.run_pure]
  exact ⟨congrArg (fun a => (k a).result) hdoes.answer, hdoes.table⟩

/-- The request does not meet the failure that is due for the store, if any. -/
def Unharmed (store : StoreKind) (w : World) (r : Request) : Prop :=
  ∀ failure, store.fault w = some failure →
    ((call store.repository r).run World.handler w).1 ≠ .error failure

/-- A call that asks the repository passes on the failure that it meets. -/
theorem Unharmed.fault_eq_none {r : Request} (h : Unharmed store w r) {op : Operation}
    {k : Except Failure op.Answer → Completion r.Response}
    (hwork : work store.repository r = store.repository op >>= fun a => pure (k a))
    (hk : ∀ e, (k (.error e)).result = .error e) : store.fault w = none := by
  cases hfault : store.fault w with
  | none => rfl
  | some failure =>
    have heffect : (store.effect op w).1 = .error failure := by rw [StoreKind.effect, hfault]
    have hanswer := (call_of_ask w k hwork).1
    rw [heffect, hk] at hanswer
    exact absurd hanswer (h failure hfault)

/-- A call that asks nothing. -/
theorem call_of_pure (w : World) {r : Request} (completion : Completion r.Response)
    (hwork : work store.repository r = pure completion) :
    ((call store.repository r).run World.handler w).1 = completion.result ∧
      ((call store.repository r).run World.handler w).2.table = w.table := by
  obtain ⟨hresult, halike⟩ := run_accounted r.method (attributes r) (work store.repository r) w
  rw [call, hresult, ← halike.table, hwork, Program.run_pure]
  exact ⟨rfl, rfl⟩

/-! ## Tables that calls lead to -/

/-- **A call keeps a sound table sound**, also when the store fails. -/
theorem sound_call (store : StoreKind) {w : World} (hsound : w.table.Sound) {r : Request}
    (hfresh : ∀ m, r = .create m → ∀ row ∈ w.table.rows, row.id ≠ w.freshId.1) :
    ((call store.repository r).run World.handler w).2.table.Sound := by
  cases hop : r.operation? with
  | none =>
    obtain ⟨completion, hwork, -⟩ := work_of_none store.repository hop
    rw [(call_of_pure w completion hwork).2]
    exact hsound
  | some op =>
    obtain ⟨k, -, hwork⟩ := work_of_operation store.repository hop
    rw [(call_of_ask w k hwork).2]
    refine store.sound_effect hsound fun comment hcreate => ?_
    subst hcreate
    obtain ⟨m, hm⟩ := Request.eq_create_of_operation? hop
    exact hfresh m hm

/-- A world that calls lead to from an empty table, if every new comment gets an identifier that no
comment has. -/
inductive Reachable (store : StoreKind) : World → Prop
  | empty {w : World} (h : w.table = {}) : Reachable store w
  | call {w : World} (h : Reachable store w) (r : Request)
      (hfresh : ∀ m, r = .create m → ∀ row ∈ w.table.rows, row.id ≠ w.freshId.1) :
      Reachable store ((call store.repository r).run World.handler w).2

/-- **Every table that calls lead to is sound.** -/
theorem Reachable.sound (h : Reachable store w) : w.table.Sound := by
  induction h with
  | empty h => exact h ▸ Table.sound_empty
  | call _ r hfresh ih => exact sound_call store ih hfresh

/-! ## What the service shows -/

/-- A listing of a sound table answers its page of the rows. -/
theorem answer_list (hsound : w.table.Sound) (hfault : store.fault w = none)
    (m : ListCommentRequest) :
    ((call store.repository (.list m)).run World.handler w).1 =
      .ok { comments := ((Table.page m.limit.toInt m.offset.toInt
        (w.table.ofVideo m.video)).map Row.toComment).map CommentInfo.ofComment } := by
  obtain ⟨hanswer, -⟩ := call_of_ask w _ (work_list store.repository m)
  have hcontents : ∀ r ∈ Table.page m.limit.toInt m.offset.toInt (w.table.ofVideo m.video),
      r.content.isSome := fun r hr =>
    hsound.contents r (Table.mem_ofVideo.1 (Table.mem_of_mem_page hr)).1
  rw [StoreKind.effect_of_fault_eq_none hfault] at hanswer
  simp only [Operation.apply, Operation.comments_eq_ok hcontents] at hanswer
  exact hanswer

/-- The service shows the board of its table. -/
theorem shows_boardOf (store : StoreKind) {w : World} (hsound : w.table.Sound) :
    Shows store w (boardOf w.table) := by
  intro video
  have hsound : w.calm.table.Sound := hsound
  have hfault : store.fault w.calm = none := store.fault_of_up rfl
  refine ⟨_, answer_list hsound hfault { video, limit := 0, offset := 0 }, ?_⟩
  rw [List.map_map, List.map_map]
  rfl

/-! ## What requests do -/

/-- A request is served on the board of the table. -/
def Served (store : StoreKind) (w : World) (r : Request) : Prop :=
  Serves (boardOf w.table) r ((call store.repository r).run World.handler w).1
    (boardOf ((call store.repository r).run World.handler w).2.table)

/-- A call that asks nothing is served if its answer is. -/
theorem served_of_pure {r : Request} {completion : Completion r.Response}
    (hwork : work store.repository r = pure completion)
    (hserves : Serves (boardOf w.table) r completion.result (boardOf w.table)) :
    Served store w r := by
  obtain ⟨hanswer, htable⟩ := call_of_pure w completion hwork
  rw [Served, hanswer, htable]
  exact hserves

/-- A call that asks the repository once, and passes on its failures, is served if the meaning of
what it asks is. -/
theorem served_of_ask {r : Request} {op : Operation}
    {k : Except Failure op.Answer → Completion r.Response} (h : Unharmed store w r)
    (hwork : work store.repository r = store.repository op >>= fun a => pure (k a))
    (hk : ∀ e, (k (.error e)).result = .error e)
    (hserves : Serves (boardOf w.table) r (k (op.apply w.freshId.1 w.table).1).result
      (boardOf (op.apply w.freshId.1 w.table).2)) : Served store w r := by
  obtain ⟨hanswer, htable⟩ := call_of_ask w k hwork
  rw [StoreKind.effect_of_fault_eq_none (h.fault_eq_none hwork hk)] at hanswer htable
  rw [Served, hanswer, htable]
  exact hserves

theorem served_list (hsound : w.table.Sound) (m : ListCommentRequest)
    (h : Unharmed store w (.list m)) : Served store w (.list m) := by
  have hanswer := answer_list hsound (h.fault_eq_none (work_list store.repository m) fun _ => rfl) m
  obtain ⟨-, htable⟩ := call_of_ask w _ (work_list store.repository m)
  rw [StoreKind.table_effect_list] at htable
  rw [Served, hanswer, htable]
  refine .list ?_
  rw [List.map_map, List.map_map, boardOf, ← Table.map_page]
  rfl

theorem served_create (hsound : w.table.Sound)
    (hfresh : ∀ r ∈ w.table.rows, r.id ≠ w.freshId.1) (m : CreateCommentRequest)
    (h : Unharmed store w (.create m)) : Served store w (.create m) := by
  refine served_of_ask h (work_create store.repository m) (fun _ => rfl) ?_
  simp only [Operation.apply, boardOf_insert hsound hfresh]
  exact .create (notMem_boardOf hfresh)

theorem served_update (hsound : w.table.Sound) (m : UpdateCommentRequest)
    (h : Unharmed store w (.update m)) : Served store w (.update m) := by
  cases hid : Uuid.ofText m.id with
  | error fault =>
    exact served_of_pure (work_update_of_error store.repository hid) (.updateMalformed hid)
  | ok id =>
    refine served_of_ask h (work_update_of_ok store.repository hid) (fun _ => rfl) ?_
    simp only [Operation.apply]
    by_cases hcount : w.table.count (·.id = id) = 0
    · rw [if_pos hcount]
      exact .updateAbsent hid (notMem_boardOf (Table.count_id_eq_zero.1 hcount))
    · rw [if_neg hcount]
      obtain ⟨r, hr, rfl⟩ := Table.exists_of_count_id_ne_zero hcount
      obtain ⟨before, after, hsplit, hboard⟩ := exists_boardOf_setContent hsound hr m.content
      rw [hboard]
      exact .update hid hsplit

theorem served_delete (hsound : w.table.Sound) (m : DeleteCommentRequest)
    (h : Unharmed store w (.delete m)) : Served store w (.delete m) := by
  cases hid : Uuid.ofText m.id with
  | error fault =>
    exact served_of_pure (work_delete_of_error store.repository hid) (.deleteMalformed hid)
  | ok id =>
    refine served_of_ask h (work_delete_of_ok store.repository hid) (fun _ => rfl) ?_
    simp only [Operation.apply]
    by_cases hcount : w.table.count (·.id = id) = 0
    · rw [if_pos hcount]
      exact .deleteAbsent hid (notMem_boardOf (Table.count_id_eq_zero.1 hcount))
    · rw [if_neg hcount]
      obtain ⟨r, hr, rfl⟩ := Table.exists_of_count_id_ne_zero hcount
      obtain ⟨before, after, hsplit, hboard⟩ := exists_boardOf_remove hsound hr
      rw [hboard]
      exact .delete hid hsplit

theorem served_deleteByVideo (m : DeleteCommentByVideoIdRequest)
    (h : Unharmed store w (.deleteByVideo m)) : Served store w (.deleteByVideo m) := by
  refine served_of_ask h (work_deleteByVideo store.repository m) (fun _ => rfl) ?_
  simp only [Operation.apply, boardOf_removeVideo]
  exact .deleteByVideo

/-- **The service is a board of comments.** On a sound table, with an identifier to come that no
comment has, the service shows a board; every request that does not meet a failure of the store
answers and changes it as `Serves` says; and the table stays sound. -/
theorem call_serves (store : StoreKind) (w : World) (hsound : w.table.Sound) (r : Request)
    (hfresh : ∀ m, r = .create m → ∀ row ∈ w.table.rows, row.id ≠ w.freshId.1)
    (hunharmed : Unharmed store w r) :
    ∃ b b', Shows store w b ∧
      Serves b r ((call store.repository r).run World.handler w).1 b' ∧
      Shows store ((call store.repository r).run World.handler w).2 b' ∧
      ((call store.repository r).run World.handler w).2.table.Sound := by
  have hserved : Served store w r := by
    cases r with
    | healthz m => exact served_of_pure rfl .healthz
    | list m => exact served_list hsound m hunharmed
    | create m => exact served_create hsound (hfresh m rfl) m hunharmed
    | update m => exact served_update hsound m hunharmed
    | delete m => exact served_delete hsound m hunharmed
    | deleteByVideo m => exact served_deleteByVideo m hunharmed
  have hsound' := sound_call store hsound hfresh
  exact ⟨boardOf w.table, _, shows_boardOf store hsound, hserved, shows_boardOf store hsound',
    hsound'⟩

/-- Three comments on two videos. -/
def threeComments : World where
  table := ((({} : Table).insert (.numbered 1) "a" "first").insert
    (.numbered 2) "b" "second").insert (.numbered 3) "a" "third"
  created := 3

theorem sound_threeComments : threeComments.table.Sound := by
  constructor <;> decide

/-- A fourth comment may be created. -/
theorem call_serves_threeComments :
    threeComments.table.Sound ∧
    (∀ m, Request.create ⟨"a", "fourth"⟩ = .create m →
      ∀ row ∈ threeComments.table.rows, row.id ≠ threeComments.freshId.1) ∧
    Unharmed .database threeComments (.create ⟨"a", "fourth"⟩) ∧
    ∃ b b', Shows .database threeComments b ∧
      Serves b (.create ⟨"a", "fourth"⟩)
        ((call StoreKind.database.repository (.create ⟨"a", "fourth"⟩)).run World.handler
          threeComments).1 b' ∧
      Shows .database ((call StoreKind.database.repository (.create ⟨"a", "fourth"⟩)).run
        World.handler threeComments).2 b' ∧
      ((call StoreKind.database.repository (.create ⟨"a", "fourth"⟩)).run World.handler
        threeComments).2.table.Sound := by
  have hfresh : ∀ m, Request.create ⟨"a", "fourth"⟩ = .create m →
      ∀ row ∈ threeComments.table.rows, row.id ≠ threeComments.freshId.1 := by
    intro m hm
    decide
  have hunharmed : Unharmed .database threeComments (.create ⟨"a", "fourth"⟩) := by
    intro failure hfault
    cases hfault
  exact ⟨sound_threeComments, hfresh, hunharmed,
    call_serves .database threeComments sound_threeComments _ hfresh hunharmed⟩

end Service

end VideoComments

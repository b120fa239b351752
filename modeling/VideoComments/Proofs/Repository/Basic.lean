import VideoComments.Proofs.Cache.Client
import VideoComments.Proofs.Comment.Table

/-!
# What a repository without a cache does

`StoreKind.effect` says in one place what an operation answers and what it makes of the table: a
failure that is due is answered and nothing changes, and otherwise the operation means what it says.
Both repositories over a store keep to it, the one that asks the store itself and the one that sends
statements to a database (`StoreKind.repository_does`), and they leave the cache alone.
-/

namespace VideoComments

/-! ## What an operation means -/

namespace Operation

/-- The number of identifiers that an operation draws. -/
def drawn : Operation → Nat
  | create _ => 1
  | _ => 0

/-- Does the operation only read? -/
def isListing : Operation → Bool
  | list .. => true
  | _ => false

/-- A page of the comments on a video. -/
def listing (t : Table) (video : String) (limit offset : Int) : Except Failure (List Comment) :=
  comments (Table.page limit offset (t.ofVideo video))

/-- **An operation that fails changes nothing.** -/
theorem table_of_apply_error {op : Operation} {fresh : Uuid} {t : Table} {failure : Failure}
    (h : (op.apply fresh t).1 = .error failure) : (op.apply fresh t).2 = t := by
  cases op with
  | list video limit offset => rfl
  | create comment => cases h
  | update comment =>
    simp only [apply] at h ⊢
    split
    · rfl
    · next hcount => rw [if_neg hcount] at h; cases h
  | delete id =>
    simp only [apply] at h ⊢
    split
    · rfl
    · next hcount => rw [if_neg hcount] at h; cases h
  | deleteByVideo video => cases h

end Operation

namespace StoreKind

/-! ## Failures that are due -/

/-- The failure that the next call to the store meets, if any. -/
def fault (kind : StoreKind) (w : World) : Option Failure :=
  match kind, w.database with
  | database, .down cause => some (.database (.unreachable cause))
  | _, _ => w.storeFaults.head?.join

theorem fault_of_up (kind : StoreKind) {w : World} (h : w.database = .up) :
    kind.fault w = w.storeFaults.head?.join := by
  unfold fault
  cases kind with
  | memory => rfl
  | database => rw [h]

/-- What an operation answers, and the table that it leaves. -/
def effect (kind : StoreKind) (op : Operation) (w : World) : Except Failure op.Answer × Table :=
  match kind.fault w with
  | some failure => (.error failure, w.table)
  | none => op.apply w.freshId.1 w.table

theorem effect_of_fault_eq_none {kind : StoreKind} {w : World} (h : kind.fault w = none)
    (op : Operation) : kind.effect op w = op.apply w.freshId.1 w.table := by
  rw [effect, h]

theorem table_of_effect_error {kind : StoreKind} {op : Operation} {w : World} {failure : Failure}
    (h : (kind.effect op w).1 = .error failure) : (kind.effect op w).2 = w.table := by
  unfold effect at h ⊢
  split
  · rfl
  · next hfault =>
    rw [hfault] at h
    exact Operation.table_of_apply_error h

/-- An operation that succeeds has its meaning. -/
theorem effect_eq_apply_of_ok {kind : StoreKind} {op : Operation} {w : World} {answer : op.Answer}
    (h : (kind.effect op w).1 = .ok answer) : kind.effect op w = op.apply w.freshId.1 w.table := by
  cases hfault : kind.fault w with
  | none => exact effect_of_fault_eq_none hfault op
  | some failure =>
    rw [effect, hfault] at h
    cases h

/-- Whatever becomes of an operation, a sound table stays sound. -/
theorem sound_effect (kind : StoreKind) {op : Operation} {w : World} (h : w.table.Sound)
    (hfresh : ∀ comment, op = .create comment → ∀ r ∈ w.table.rows, r.id ≠ w.freshId.1) :
    (kind.effect op w).2.Sound := by
  unfold effect
  split
  · exact h
  · exact h.apply op hfresh

/-- Listing does not change the table. -/
theorem table_effect_list (kind : StoreKind) (video : String) (limit offset : Int) (w : World) :
    (kind.effect (.list video limit offset) w).2 = w.table := by
  unfold effect
  split <;> rfl

/-- A listing that succeeds is the listing of the table. -/
theorem listing_of_effect_ok {kind : StoreKind} {video : String} {limit offset : Int} {w : World}
    {page : List Comment} (h : (kind.effect (.list video limit offset) w).1 = .ok page) :
    Operation.listing w.table video limit offset = .ok page := by
  rw [effect_eq_apply_of_ok h] at h
  exact h

/-- What an operation does depends on the store alone. -/
theorem effect_congr (kind : StoreKind) (op : Operation) {w w' : World} (h : w.SameStore w') :
    kind.effect op w' = kind.effect op w := by
  simp only [effect, fault, World.freshId, h.table, h.created, h.storeFaults, h.database]

/-! ## What a repository does -/

/-- What calls to the store leave as it was. -/
structure SameCache (w w' : World) : Prop where
  now : w'.now = w.now
  entries : w'.entries = w.entries
  database : w'.database = w.database

/-- An operation has its effect, and the cache stays as it is. -/
structure Does (kind : StoreKind) (op : Operation) (w : World)
    (r : Except Failure op.Answer × World) : Prop where
  answer : r.1 = (kind.effect op w).1
  table : r.2.table = (kind.effect op w).2
  created : r.2.created = w.created + op.drawn
  sameCache : SameCache w r.2

namespace Does

variable {kind : StoreKind} {op : Operation} {w w' : World} {a : Except Failure op.Answer}

theorem of_fault {failure : Failure} (hfault : kind.fault w = some failure)
    (htable : w'.table = w.table) (hcreated : w'.created = w.created + op.drawn)
    (hsame : SameCache w w') : Does kind op w (.error failure, w') := by
  have heffect : kind.effect op w = (.error failure, w.table) := by rw [effect, hfault]
  exact ⟨by rw [heffect], by rw [heffect, htable], hcreated, hsame⟩

theorem of_apply {t : Table} (hfault : kind.fault w = none)
    (happly : op.apply w.freshId.1 w.table = (a, t)) (htable : w'.table = t)
    (hcreated : w'.created = w.created + op.drawn) (hsame : SameCache w w') :
    Does kind op w (a, w') := by
  have heffect : kind.effect op w = (a, t) := by rw [effect_of_fault_eq_none hfault, happly]
  exact ⟨by rw [heffect], by rw [heffect, htable], hcreated, hsame⟩

/-- Signals after an operation do not matter. -/
theorem receive (h : Does kind op w (a, w')) (signal : Signal) :
    Does kind op w (a, w'.receive signal) := by
  cases signal <;> exact ⟨h.answer, h.table, h.created, h.sameCache.1, h.sameCache.2, h.sameCache.3⟩

/-- Signals before an operation do not matter. -/
theorem of_receive {signal : Signal} {r : Except Failure op.Answer × World}
    (hw : w.receive signal = w') (h : Does kind op w' r) : Does kind op w r := by
  subst hw
  have heffect := effect_congr kind op (w.sameStore_receive signal)
  cases signal <;>
    exact ⟨heffect ▸ h.answer, heffect ▸ h.table, h.created, h.sameCache.1, h.sameCache.2,
      h.sameCache.3⟩

end Does

/-! ### Asking the store itself -/

theorem direct_does (op : Operation) (w : World) : Does .memory op w (w.answerStore op) := by
  have hfault : fault .memory w = w.storeFaults.head?.join := rfl
  unfold World.answerStore World.takeStoreFault
  cases hdue : w.storeFaults.head?.join with
  | some failure =>
    cases op <;>
      simp only [World.note, World.freshId, hdue] <;>
      exact .of_fault (hfault.trans hdue) rfl rfl ⟨rfl, rfl, rfl⟩
  | none =>
    cases op <;>
      simp only [World.note, World.freshId, hdue] <;>
      exact .of_apply (hfault.trans hdue) rfl rfl rfl ⟨rfl, rfl, rfl⟩

/-! ### Sending statements -/

/-- A statement meets the failure that is due, or runs. -/
theorem answerStatement_spec (s : Statement) (w : World) :
    ((∃ failure, fault .database w = some failure ∧ (w.answerStatement s).1 = .error failure ∧
        (w.answerStatement s).2.table = w.table) ∨
      fault .database w = none ∧ (w.answerStatement s).1 = .ok (s.run w.table).1 ∧
        (w.answerStatement s).2.table = (s.run w.table).2) ∧
      (w.answerStatement s).2.created = w.created ∧ SameCache w (w.answerStatement s).2 := by
  unfold World.answerStatement World.takeStoreFault fault
  cases hlink : w.database with
  | down cause => exact ⟨.inl ⟨_, rfl, rfl, rfl⟩, rfl, rfl, rfl, rfl⟩
  | up =>
    have hnote : (w.note (.statement s)).storeFaults = w.storeFaults := rfl
    rw [hnote]
    cases w.storeFaults.head?.join with
    | some failure => exact ⟨.inl ⟨failure, rfl, rfl, rfl⟩, rfl, rfl, rfl, rfl⟩
    | none => exact ⟨.inr ⟨rfl, rfl, rfl⟩, rfl, rfl, rfl, rfl⟩

/-- A limit of a statement cuts off what a limit of a listing does. -/
theorem run_select (t : Table) (video : String) (limit offset : Int) :
    Operation.comments
        ((Statement.select video (if 0 < limit then some limit.toNat else none) offset.toNat).run
          t).1 = Operation.listing t video limit offset := by
  generalize hbound : (if 0 < limit then some limit.toNat else none) = bound
  unfold Operation.listing Table.page
  by_cases hlimit : 0 < limit
  · rw [if_pos hlimit] at hbound ⊢
    rw [← hbound]
    rfl
  · rw [if_neg hlimit] at hbound ⊢
    rw [← hbound]
    rfl

theorem selectPage_does (video : String) (limit offset : Int) (w : World) :
    Does .database (.list video limit offset) w
      ((Repository.selectPage video limit offset).run World.handler w) := by
  rw [Repository.selectPage, Program.run_bind, Program.run_log, World.handler_receive]
  generalize hlog : w.receive _ = w'
  refine .of_receive hlog ?_
  rw [Program.run_bind, Program.run_ask, World.handler_statement]
  obtain ⟨h, hcreated, hsame⟩ := answerStatement_spec
    (.select video (if 0 < limit then some limit.toNat else none) offset.toNat) w'
  rcases h with ⟨failure, hfault, hreply, htable⟩ | ⟨hfault, hreply, htable⟩
  · rw [hreply]
    exact .of_fault hfault htable hcreated hsame
  · rw [hreply]
    refine .of_apply hfault ?_ htable hcreated hsame
    exact congrArg (·, w'.table) (run_select w'.table video limit offset).symm

theorem insertComment_does (comment : Comment) (w : World) :
    Does .database (.create comment) w
      ((Repository.insertComment comment).run World.handler w) := by
  rw [Repository.insertComment, Program.run_bind, Program.run_ask, World.handler_freshId,
    Program.run_bind, Program.run_ask, World.handler_statement]
  obtain ⟨h, hcreated, hsame⟩ := answerStatement_spec
    (.insert w.freshId.1 comment.video comment.content) w.freshId.2
  have hsame : SameCache w _ := ⟨hsame.now, hsame.entries, hsame.database⟩
  rcases h with ⟨failure, hfault, hreply, htable⟩ | ⟨hfault, hreply, htable⟩
  · rw [hreply]
    exact .of_fault hfault htable hcreated hsame
  · rw [hreply]
    have hdoes : Does .database (.create comment) w (.ok w.freshId.1, _) :=
      .of_apply hfault rfl htable hcreated hsame
    exact hdoes.receive (.log _)

/-- A statement that affects no row is answered as a comment that does not exist. -/
theorem updateComment_does (comment : Comment) (w : World) :
    Does .database (.update comment) w
      ((Repository.updateComment comment).run World.handler w) := by
  rw [Repository.updateComment, Program.run_bind, Program.run_ask, World.handler_statement]
  obtain ⟨h, hcreated, hsame⟩ := answerStatement_spec (.update comment.id comment.content) w
  rcases h with ⟨failure, hfault, hreply, htable⟩ | ⟨hfault, hreply, htable⟩
  · rw [hreply]
    exact .of_fault hfault htable hcreated hsame
  · rw [hreply]
    by_cases hcount : ((Statement.update comment.id comment.content).run w.table).1 = 0
    · have hid : w.table.count (·.id = comment.id) = 0 := hcount
      have htable := htable.trans (Table.setContent_of_count_eq_zero hid _)
      simp only [if_pos hcount]
      have hdoes : Does .database (.update comment) w (.error .commentNotFound, _) :=
        .of_apply hfault (if_pos hcount) htable hcreated hsame
      exact hdoes.receive (.log _)
    · simp only [if_neg hcount]
      have hdoes : Does .database (.update comment) w (.ok (), _) :=
        .of_apply hfault (if_neg hcount) htable hcreated hsame
      exact hdoes.receive (.log _)

theorem deleteComment_does (id : Uuid) (w : World) :
    Does .database (.delete id) w ((Repository.deleteComment id).run World.handler w) := by
  rw [Repository.deleteComment, Program.run_bind, Program.run_ask, World.handler_statement]
  obtain ⟨h, hcreated, hsame⟩ := answerStatement_spec (.delete id) w
  rcases h with ⟨failure, hfault, hreply, htable⟩ | ⟨hfault, hreply, htable⟩
  · rw [hreply]
    exact .of_fault hfault htable hcreated hsame
  · rw [hreply]
    by_cases hcount : ((Statement.delete id).run w.table).1 = 0
    · have hid : w.table.count (·.id = id) = 0 := hcount
      have htable := htable.trans (Table.remove_of_count_eq_zero hid)
      simp only [if_pos hcount]
      have hdoes : Does .database (.delete id) w (.error .commentNotFound, _) :=
        .of_apply hfault (if_pos hcount) htable hcreated hsame
      exact hdoes.receive (.log _)
    · simp only [if_neg hcount]
      have hdoes : Does .database (.delete id) w (.ok (), _) :=
        .of_apply hfault (if_neg hcount) htable hcreated hsame
      exact hdoes.receive (.log _)

theorem deleteVideo_does (video : String) (w : World) :
    Does .database (.deleteByVideo video) w
      ((Repository.deleteVideo video).run World.handler w) := by
  rw [Repository.deleteVideo, Program.run_bind, Program.run_ask, World.handler_statement]
  obtain ⟨h, hcreated, hsame⟩ := answerStatement_spec (.deleteByVideo video) w
  rcases h with ⟨failure, hfault, hreply, htable⟩ | ⟨hfault, hreply, htable⟩
  · rw [hreply]
    exact .of_fault hfault htable hcreated hsame
  · rw [hreply]
    exact (Does.of_apply hfault rfl htable hcreated hsame).receive (.log _)

/-- **Both repositories over a store do what an operation means, or fail and change nothing.** -/
theorem repository_does (kind : StoreKind) (op : Operation) (w : World) :
    kind.Does op w ((kind.repository op).run World.handler w) := by
  cases kind with
  | memory => exact direct_does op w
  | database =>
    cases op with
    | list video limit offset => exact selectPage_does video limit offset w
    | create comment => exact insertComment_does comment w
    | update comment => exact updateComment_does comment w
    | delete id => exact deleteComment_does id w
    | deleteByVideo video => exact deleteVideo_does video w

end StoreKind

end VideoComments

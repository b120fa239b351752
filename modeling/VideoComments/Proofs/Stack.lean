import VideoComments.Proofs.Repository.Cached
import VideoComments.Proofs.World

/-!
# What the repository of a stack does

With or without a cache, an operation that fails has failed at the store, and leaves the rows and
the cache as they were; only a listing may have removed a value that is no page (`Stack.refused`).
What a write answers is what the store answers, whatever becomes of the cache
(`Stack.answer_of_write`).
-/

namespace VideoComments

/-! ## What a failure leaves -/

/-- What a failure leaves of a world in which an operation was asked for, or none: rows and counters
as they were, and the pages as they were, but that a listing may have removed a value that is no
page from under the key of its page. -/
structure Spared (asked : Option Operation) (w w' : World) : Prop where
  table : w'.table = w.table
  counters : ∀ key, Cache.Key.IsCounter key → w'.entries.lookup key = w.entries.lookup key
  pages : w'.entries = w.entries ∨
    ∃ p : Cache.PageName, asked = some (.list p.video p.limit p.offset) ∧
      Repository.Discards w.now p.key w.entries w'.entries

namespace Spared

variable {asked : Option Operation} {w w' : World}

theorem of_entries_eq (htable : w'.table = w.table) (hes : w'.entries = w.entries) :
    Spared asked w w' :=
  ⟨htable, fun _ _ => by rw [hes], .inl hes⟩

theorem of_discards {p : Cache.PageName} (htable : w'.table = w.table)
    (h : Repository.Discards w.now p.key w.entries w'.entries) :
    Spared (some (.list p.video p.limit p.offset)) w w' :=
  ⟨htable, fun _ hkey => (Repository.Discards.shrinks h).lookup_counter hkey, .inr ⟨p, rfl, h⟩⟩

/-- What is noted afterwards does not matter. -/
theorem alike (h : Spared asked w w') {w'' : World} (hafter : w'.Alike w'') :
    Spared asked w w'' := by
  refine ⟨?_, ?_, ?_⟩
  · rw [← hafter.table]
    exact h.table
  · rw [← hafter.entries]
    exact h.counters
  · rw [← hafter.entries]
    exact h.pages

end Spared

/-- A call that fails has failed at the store; a write that does leaves the cache as it was. -/
theorem Repository.Outcome.of_error {store : StoreKind} {lifetime : Duration} {w : World}
    {xs : List Exchange} {op : Operation} {answer : Except Failure op.Answer} {es : Cache.Entries}
    (h : Outcome store lifetime w xs op answer es) {failure : Failure}
    (herror : answer = .error failure) :
    (store.effect op w).1 = .error failure ∧ (op.isListing = false → es = w.entries) := by
  cases h with
  | hit | kept | counted | uncounted => cases herror
  | through hes => exact ⟨herror, fun hop => (by cases hop)⟩
  | refused h => cases herror; exact ⟨h, fun _ => rfl⟩

namespace Stack

variable (s : Stack)

/-- **A write answers what the store answers**, whatever becomes of the cache. -/
theorem answer_of_write {op : Operation} (hop : op.isListing = false) (w : World) :
    ((s.repository op).run World.handler w).1 = (s.store.effect op w).1 := by
  rw [repository]
  cases s.cache with
  | none => exact (s.store.repository_does op w).answer
  | some kind =>
    have houtcome := (Repository.cached_does kind s.store s.lifetime op w).outcome
    generalize ((Repository.cached s.store.repository kind.client s.lifetime op).run World.handler
      w) = r at houtcome ⊢
    obtain ⟨answer, w'⟩ := r
    simp only at houtcome ⊢
    generalize w'.entries = es at houtcome
    cases houtcome with
    | hit | through | kept => cases hop
    | refused h => exact h.symm
    | counted h | uncounted h => exact h.symm

/-- **An operation that fails has failed at the store and changes nothing**, but that a listing may
have removed a value that is no page. -/
theorem refused {op : Operation} {w : World} {failure : Failure}
    (h : ((s.repository op).run World.handler w).1 = .error failure) :
    (s.store.effect op w).1 = .error failure ∧
      Spared (some op) w ((s.repository op).run World.handler w).2 := by
  rw [repository] at h ⊢
  cases hcache : s.cache with
  | none =>
    rw [hcache] at h
    have hdoes := s.store.repository_does op w
    have hanswer := hdoes.answer.symm.trans h
    have htable := hdoes.table.trans (StoreKind.table_of_effect_error hanswer)
    exact ⟨hanswer, .of_entries_eq htable hdoes.sameCache.entries⟩
  | some kind =>
    rw [hcache] at h
    simp only at h ⊢
    have hdoes := Repository.cached_does kind s.store s.lifetime op w
    obtain ⟨hanswer, hes⟩ := hdoes.outcome.of_error h
    have htable := hdoes.table.trans (StoreKind.table_of_effect_error hanswer)
    refine ⟨hanswer, ?_⟩
    cases op with
    | list video limit offset =>
      obtain ⟨-, -, hfailed⟩ :=
        Repository.listCached_spec kind s.store s.lifetime video limit offset w []
      obtain ⟨g, n, hdiscards⟩ := hfailed failure h
      exact .of_discards (p := ⟨video, g, n, limit, offset⟩) htable hdiscards
    | create | update | delete | deleteByVideo => exact .of_entries_eq htable (hes rfl)

end Stack

end VideoComments

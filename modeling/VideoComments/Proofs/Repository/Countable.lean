import VideoComments.Proofs.Repository.Invalidation

/-!
# Which writes can be counted

A listing trusts a counter that spells an integer of 64 bits in any way, with a plus sign or leading
zeros if need be. An increment is stricter: it takes an integer only as integers are written, and
only below the top of their range (`Entries.Countable`, `Entries.exists_increment_iff`).

So a write that succeeds takes a counter that is trusted up exactly if the counter is `Countable`
(`counter_rises_iff_countable`). If it is, no page from before the write is served after it. If it
is not, the write stays uncounted, and every page that was there before goes on being served
(`signed_counter_serves_stale_page`).
-/

namespace VideoComments

/-! ## Counters that an increment takes -/

namespace Cache.Entries

/-- The counter is absent, or an integer as integers are written and below the top of its range. -/
def Countable (es : Entries) (now : Nat) (key : String) : Prop :=
  ∀ e, es.live? now key = some e → ∃ i, Decimal.fitsInt64 i = true ∧
    i < Int64.maxValue.toInt ∧ e.value = Utf8.encode (Decimal.ofInt i)

variable {es : Entries} {now : Nat} {key : String}

/-- What an increment takes a counter for. -/
theorem counter_eq_ok_iff {i : Int} :
    es.counter now key = .ok i ↔
      es.live? now key = none ∧ i = 0 ∨ ∃ e, es.live? now key = some e ∧
        Decimal.fitsInt64 i = true ∧ e.value = Utf8.encode (Decimal.ofInt i) := by
  rw [counter]
  cases es.live? now key with
  | none =>
    simp only [Except.ok.injEq, true_and, reduceCtorEq, false_and, exists_false, or_false]
    exact eq_comm
  | some e =>
    have hspelt : ((Utf8.decode? e.value).bind fun s => Decimal.canonical? s.toList) = some i ↔
        Decimal.fitsInt64 i = true ∧ e.value = Utf8.encode (Decimal.ofInt i) := by
      simp only [Option.bind_eq_some_iff, Utf8.decode?_eq_some_iff, Decimal.canonical?_eq_some_iff]
      constructor
      · rintro ⟨s, hvalue, hfits, hs⟩
        refine ⟨hfits, hvalue.trans (congrArg Utf8.encode ?_)⟩
        rw [Decimal.ofInt, ← hs, String.ofList_toList]
      · rintro ⟨hfits, hvalue⟩
        exact ⟨_, hvalue, hfits, String.toList_ofList⟩
    simp only [reduceCtorEq, false_and, Option.some.injEq, exists_eq_left', false_or, ← hspelt]
    cases (Utf8.decode? e.value).bind fun s => Decimal.canonical? s.toList <;> simp

/-- **A counter can be incremented exactly if it is `Countable`.** -/
theorem exists_increment_iff :
    (∃ n es', es.increment now key = (.ok n, es')) ↔ es.Countable now key := by
  constructor
  · rintro ⟨n, es', hinc⟩ e he
    unfold increment at hinc
    split at hinc
    · cases hinc
    · next i hi =>
      obtain ⟨hnone, -⟩ | ⟨e', he', hfits, hvalue⟩ := counter_eq_ok_iff.1 hi
      · rw [hnone] at he
        cases he
      · obtain rfl : e' = e := Option.some.inj (he'.symm.trans he)
        refine ⟨i, hfits, (Decimal.fitsInt64_succ_iff hfits).1 ?_, hvalue⟩
        by_contra hfull
        rw [if_neg hfull] at hinc
        cases hinc
  · intro hcountable
    obtain ⟨i, hfits, hi⟩ : ∃ i, Decimal.fitsInt64 (i + 1) = true ∧ es.counter now key = .ok i := by
      cases hlive : es.live? now key with
      | none => exact ⟨0, by decide, counter_eq_ok_iff.2 (.inl ⟨hlive, rfl⟩)⟩
      | some e =>
        obtain ⟨i, hfits, htop, hvalue⟩ := hcountable e hlive
        exact ⟨i, (Decimal.fitsInt64_succ_iff hfits).2 htop,
          counter_eq_ok_iff.2 (.inr ⟨e, hlive, hfits, hvalue⟩)⟩
    rw [increment, hi]
    simp only [hfits, if_true]
    exact ⟨_, _, rfl⟩

end Cache.Entries

/-! ## Writes -/

namespace Repository

open Cache (Entries)

/-- A write that succeeds is counted exactly if its counter is `Countable`, and changes nothing in
the cache otherwise. -/
theorem Leaves.counted_iff {now : Nat} {es es' : Entries} {op : Operation} {counter : String}
    {answer : op.Answer} (hleaves : Leaves now es op (.ok answer) es')
    (hcounter : counterOf op = some counter) :
    (es.Countable now counter ∧ ∃ n, es.increment now counter = (.ok n, es')) ∨
      (¬ es.Countable now counter ∧ es' = es) := by
  cases hleaves with
  | hit | kept | through => cases hcounter
  | counted hcounter' hinc =>
    obtain rfl := Option.some.inj (hcounter'.symm.trans hcounter)
    exact .inl ⟨Entries.exists_increment_iff.1 ⟨_, _, hinc⟩, _, hinc⟩
  | uncounted hcounter' hinc =>
    obtain rfl := Option.some.inj (hcounter'.symm.trans hcounter)
    refine .inr ⟨fun hcountable => ?_, rfl⟩
    obtain ⟨n, es', hok⟩ := Entries.exists_increment_iff.2 hcountable
    rw [hok] at hinc
    cases hinc

/-- **A counter that a listing trusts goes up with a write exactly if it is `Countable`.** If it is,
then after the write every page that depends on it is cold, as long as no page was ahead of it. If
it is not, every page that a listing found before the write is served after it as well. -/
theorem counter_rises_iff_countable {inner : Repository} {cache : CacheKind} {lifetime : Duration}
    {w : World} (hinner : inner.SparesCache) (haccepts : cache.Accepts lifetime)
    (hw : w.CacheWorks cache) {op : Operation} {counter : String}
    (hcounter : counterOf op = some counter) {i : Int}
    (hi : w.entries.reading w.now counter = some i) {answer : op.Answer}
    (hok : ((cached inner cache.client lifetime op).run World.handler w).1 = .ok answer) :
    let after := ((cached inner cache.client lifetime op).run World.handler w).2
    ((∃ j > i, after.entries.reading after.now counter = some j) ↔
        w.entries.Countable w.now counter) ∧
      (w.entries.Countable w.now counter → w.entries.NoneAhead counter i →
        ∀ video limit offset, counter = Cache.Key.generation ∨ counter = Cache.Key.version video →
          ¬ IsWarm inner cache lifetime after video limit offset) ∧
      (¬ w.entries.Countable w.now counter →
        ∀ video limit offset page, w.entries.found? w.now video limit offset = some page →
          ((cached inner cache.client lifetime (.list video limit offset)).run World.handler
            after).1 = .ok page) := by
  intro after
  have hnow : after.now = w.now := (World.run_leaves _ w).1
  have hafter : after.CacheWorks cache := hw.run _
  have hleaves : Leaves w.now w.entries op (.ok answer) after.entries :=
    hok ▸ cached_leaves hinner haccepts hw op
  rw [hnow]
  rcases hleaves.counted_iff hcounter with ⟨hcountable, n, hinc⟩ | ⟨hnot, hes⟩
  · obtain ⟨hbefore, -, -⟩ := Entries.increment_ok hinc
    obtain rfl : i = n - 1 := Option.some.inj (hi.symm.trans hbefore)
    refine ⟨iff_of_true ⟨n, by omega, Entries.reading_increment hinc⟩ hcountable, ?_,
      fun hnot => (hnot hcountable).elim⟩
    intro _ hahead video limit offset hdepends
    rw [isWarm_iff hafter, hnow, hahead.found?_increment (isCounter_of_counterOf hcounter) hinc
      hdepends]
    rintro ⟨page, hpage⟩
    cases hpage
  · refine ⟨iff_of_false ?_ hnot, fun hcountable => (hnot hcountable).elim, ?_⟩
    · rintro ⟨j, hj, hread⟩
      rw [hes, hi] at hread
      obtain rfl := Option.some.inj hread
      exact lt_irrefl _ hj
    · intro _ video limit offset page hfound
      rw [← hes, ← hnow] at hfound
      exact ((cached_leaves hinner haccepts hafter (.list video limit offset)).of_found hfound).1

/-- One comment is stored, and somebody has set the counter of all videos to a text. -/
def withGeneration (text : String) : World :=
  (({} : World).insertRow none (.numbered 1) "v" (some "old")).setKey Cache.Key.generation
    (Utf8.encode text)

/-- The comment's video has been listed. -/
def listedWithGeneration (text : String) : World :=
  ((minutely (.list "v" 10 0)).run World.handler (withGeneration text)).2

/-- The comment has been given another content. -/
def rewrittenWithGeneration (text : String) : World :=
  ((minutely (.update { id := .numbered 1, content := "new" })).run World.handler
    (listedWithGeneration text)).2

/-- A counter that is written as integers are goes up, and the page from before is cold. -/
theorem counter_rises_iff_countable_five :
    StoreKind.database.repository.SparesCache ∧ CacheKind.redis.Accepts (.ofSeconds 60) ∧
    (listedWithGeneration "5").CacheWorks .redis ∧
    (listedWithGeneration "5").entries.reading (listedWithGeneration "5").now
      Cache.Key.generation = some 5 ∧
    IsWarm StoreKind.database.repository .redis (.ofSeconds 60) (listedWithGeneration "5")
      "v" 10 0 ∧
    ∃ j > 5, (rewrittenWithGeneration "5").entries.reading (rewrittenWithGeneration "5").now
      Cache.Key.generation = some j := by
  have hinner := sparesCache_repository .database
  have haccepts : CacheKind.redis.Accepts (.ofSeconds 60) := by decide
  have hworks : (listedWithGeneration "5").CacheWorks .redis :=
    World.CacheWorks.run ⟨fun _ => rfl, fun _ h => by cases h⟩ _
  have hread : (listedWithGeneration "5").entries.reading (listedWithGeneration "5").now
      Cache.Key.generation = some 5 := by decide +kernel
  have hwarm : IsWarm StoreKind.database.repository .redis (.ofSeconds 60)
      (listedWithGeneration "5") "v" 10 0 := by decide +kernel
  have hok : ((minutely (.update { id := .numbered 1, content := "new" })).run World.handler
      (listedWithGeneration "5")).1 = .ok () := by decide +kernel
  obtain ⟨hiff, -, -⟩ := counter_rises_iff_countable hinner haccepts hworks rfl hread hok
  refine ⟨hinner, haccepts, hworks, hread, hwarm, hiff.2 fun e he => ⟨5, by decide, by decide, ?_⟩⟩
  have hvalue : ((listedWithGeneration "5").entries.live? (listedWithGeneration "5").now
      Cache.Key.generation).map Cache.Entry.value = some (Utf8.encode (Decimal.ofInt 5)) := by
    decide +kernel
  rw [he] at hvalue
  exact Option.some.inj hvalue

/-- **A page is served from before a write.** A counter with a plus sign is trusted by listings, but
the increment of a write that succeeds fails on it: it reads as before, and a listing answers what
the write has replaced. -/
theorem signed_counter_serves_stale_page :
    (listedWithGeneration "+5").entries.reading (listedWithGeneration "+5").now
      Cache.Key.generation = some 5 ∧
    ((minutely (.update { id := .numbered 1, content := "new" })).run World.handler
      (listedWithGeneration "+5")).1 = .ok () ∧
    (rewrittenWithGeneration "+5").entries.reading (rewrittenWithGeneration "+5").now
      Cache.Key.generation = some 5 ∧
    ((StoreKind.database.repository (.list "v" 10 0)).run World.handler
      (rewrittenWithGeneration "+5")).1 = .ok [⟨.numbered 1, "v", "new"⟩] ∧
    ((minutely (.list "v" 10 0)).run World.handler (rewrittenWithGeneration "+5")).1 =
      .ok [⟨.numbered 1, "v", "old"⟩] := by
  refine ⟨?_, ?_, ?_, ?_, ?_⟩ <;> decide +kernel

end Repository

end VideoComments

import VideoComments.Cache.Entries
import VideoComments.Proofs.Cache.Key

/-!
# What a cache holds

* Setting and removing a key change that key alone (`lookup_put`, `lookup_erase`).
* `reading` is the number that a listing takes a counter for. An increment that succeeds takes it up
  by one (`reading_increment`), and one that fails changes nothing (`increment_error`).
* `HasNoPages` and `CountersLast` say what a cache is like that nobody has cached anything in yet.
-/

namespace VideoComments.Cache

theorem Entry.isLive_of_expiry_eq_none {e : Entry} (h : e.expiry = none) (now : Nat) :
    e.isLive now = true := by
  rw [Entry.isLive, h]

namespace Entries

/-! ## Looking up -/

theorem lookup_cons_eq_ite (key : String) (e : String × Entry) (es : Entries) :
    List.lookup key (e :: es) = if key = e.1 then some e.2 else es.lookup key := by
  rw [List.lookup_cons]
  by_cases h : key = e.1
  · rw [if_pos h, beq_iff_eq.2 h]
  · rw [if_neg h, beq_eq_false_iff_ne.2 h]

theorem lookup_erase (es : Entries) (key key' : String) :
    (es.erase key).lookup key' = if key' = key then none else es.lookup key' := by
  induction es with
  | nil => simp [erase]
  | cons e es ih =>
    rw [erase] at ih ⊢
    by_cases he : e.1 = key
    · rw [List.filter_cons_of_neg (by simpa using he), ih, lookup_cons_eq_ite, he]
      split <;> rfl
    · rw [List.filter_cons_of_pos (by simpa using he), lookup_cons_eq_ite, ih, lookup_cons_eq_ite]
      by_cases h : key' = e.1
      · simp [h, he]
      · simp [h]

theorem lookup_put (es : Entries) (key key' : String) (e : Entry) :
    (es.put key e).lookup key' = if key' = key then some e else es.lookup key' := by
  rw [put, lookup_cons_eq_ite, lookup_erase]
  split <;> rfl

theorem live?_eq_some {es : Entries} {now : Nat} {key : String} {e : Entry} :
    es.live? now key = some e ↔ es.lookup key = some e ∧ e.isLive now = true := by
  rw [live?, Option.filter_eq_some_iff]

/-! ## Reading a counter -/

/-- The number that a listing takes a counter for at a time: zero if it is absent, and none if it is
no integer. -/
def reading (es : Entries) (now : Nat) (key : String) : Option Int :=
  match es.live? now key with
  | none => some 0
  | some e => (Utf8.decode? e.value).bind fun s => Decimal.int64? s.toList

theorem reading_congr {es es' : Entries} {key : String} (h : es'.lookup key = es.lookup key)
    (now : Nat) : es'.reading now key = es.reading now key := by
  simp only [reading, live?, h]

theorem reading_put_of_ne (es : Entries) {key key' : String} (h : key' ≠ key) (now : Nat)
    (e : Entry) : (es.put key e).reading now key' = es.reading now key' :=
  reading_congr (by rw [lookup_put, if_neg h]) now

/-- A counter that has a value for an increment has the same value for a listing. -/
theorem reading_of_counter {es : Entries} {now : Nat} {key : String} {i : Int}
    (h : es.counter now key = .ok i) : es.reading now key = some i := by
  cases hlive : es.live? now key with
  | none =>
    simp only [counter, hlive] at h
    cases h
    simp only [reading, hlive]
  | some e =>
    simp only [counter, hlive] at h
    simp only [reading, hlive]
    cases hspelt : (Utf8.decode? e.value).bind fun s => Decimal.canonical? s.toList with
    | none =>
      rw [hspelt] at h
      cases h
    | some j =>
      rw [hspelt] at h
      cases h
      obtain ⟨s, hs, hi⟩ := Option.bind_eq_some_iff.1 hspelt
      rw [hs, Option.bind_some, Decimal.int64?_of_canonical? hi]

/-! ## Incrementing a counter -/

/-- The entry of a counter after an increment to `n`. -/
def incremented (es : Entries) (now : Nat) (key : String) (n : Int) : Entry where
  value := Utf8.encode (Decimal.ofInt n)
  expiry := (es.live? now key).bind Entry.expiry

theorem isLive_incremented (es : Entries) (now : Nat) (key : String) (n : Int) :
    (es.incremented now key n).isLive now = true := by
  cases h : es.live? now key with
  | none => simp [incremented, Entry.isLive, h]
  | some e =>
    have he := (live?_eq_some.1 h).2
    simpa [incremented, Entry.isLive, h] using he

theorem increment_error {es : Entries} {now : Nat} {key : String} {fault : CounterFault}
    (h : (es.increment now key).1 = .error fault) : (es.increment now key).2 = es := by
  unfold increment at h ⊢
  split
  · rfl
  · next i hi =>
    rw [hi] at h
    simp only at h ⊢
    split at h
    · cases h
    · next hfit => rw [if_neg hfit]

/-- What an increment that succeeds finds and leaves. -/
theorem increment_ok {es es' : Entries} {now : Nat} {key : String} {n : Int}
    (h : es.increment now key = (.ok n, es')) :
    es.reading now key = some (n - 1) ∧ Decimal.fitsInt64 n = true ∧
      es' = es.put key (es.incremented now key n) := by
  unfold increment at h
  split at h
  · cases h
  · next i hi =>
    split at h
    · next hfit =>
      cases h
      refine ⟨?_, hfit, rfl⟩
      rw [reading_of_counter hi]
      congr 1
      omega
    · cases h

/-- An increment leaves other keys as they are. -/
theorem lookup_increment {es es' : Entries} {now : Nat} {key : String} {n : Int}
    (h : es.increment now key = (.ok n, es')) {other : String} (hne : other ≠ key) :
    es'.lookup other = es.lookup other := by
  obtain ⟨-, -, rfl⟩ := increment_ok h
  rw [lookup_put, if_neg hne]

/-- **A counter that was incremented reads as the number that the increment answered.** -/
theorem reading_increment {es es' : Entries} {now : Nat} {key : String} {n : Int}
    (h : es.increment now key = (.ok n, es')) : es'.reading now key = some n := by
  obtain ⟨-, hfit, rfl⟩ := increment_ok h
  have hlive : (es.put key (es.incremented now key n)).live? now key =
      some (es.incremented now key n) :=
    live?_eq_some.2 ⟨by rw [lookup_put, if_pos rfl], isLive_incremented es now key n⟩
  rw [reading, hlive]
  simp [incremented, Utf8.decode?_encode, Decimal.ofInt, Decimal.int64?_signedDigits hfit]

/-! ## Before anything is cached -/

/-- No page is cached. -/
def HasNoPages (es : Entries) : Prop :=
  ∀ video g v l o, es.lookup (Key.page video g v l o) = none

/-- No counter is there. -/
def HasNoCounters (es : Entries) : Prop :=
  ∀ key, Key.IsCounter key → es.lookup key = none

/-- Counters do not expire. -/
def CountersLast (es : Entries) : Prop :=
  ∀ key, Key.IsCounter key → ∀ e, es.lookup key = some e → e.expiry = none

/-- A counter that does not expire reads the same at any time. -/
theorem CountersLast.reading_eq {es : Entries} (h : es.CountersLast) {key : String}
    (hkey : Key.IsCounter key) (now now' : Nat) : es.reading now' key = es.reading now key := by
  have hlive : ∀ now, es.live? now key = es.lookup key := fun now => by
    cases he : es.lookup key with
    | none => rw [live?, he]; rfl
    | some e => exact live?_eq_some.2 ⟨he, Entry.isLive_of_expiry_eq_none (h key hkey e he) now⟩
  rw [reading, reading, hlive, hlive]

/-- Only what happens to counters themselves matters to whether they last. -/
theorem CountersLast.congr {es es' : Entries} (h : es.CountersLast)
    (heq : ∀ key, Key.IsCounter key → es'.lookup key = es.lookup key) : es'.CountersLast :=
  fun key hkey e he => h key hkey e (by rw [← heq key hkey, he])

theorem HasNoCounters.countersLast {es : Entries} (h : es.HasNoCounters) : es.CountersLast := by
  intro key hkey e he
  rw [h key hkey] at he
  cases he

/-- A counter that is not there reads as zero. -/
theorem HasNoCounters.reading {es : Entries} (h : es.HasNoCounters) {key : String}
    (hkey : Key.IsCounter key) (now : Nat) : es.reading now key = some 0 := by
  have hlive : es.live? now key = none := by
    rw [live?, h key hkey]
    rfl
  rw [Entries.reading, hlive]

theorem CountersLast.increment {es es' : Entries} (h : es.CountersLast) {now : Nat} {key : String}
    {n : Int} (hinc : es.increment now key = (.ok n, es')) : es'.CountersLast := by
  obtain ⟨-, -, rfl⟩ := increment_ok hinc
  intro key' hkey e he
  rw [lookup_put] at he
  split at he
  · next heq =>
    cases he
    cases hlive : es.live? now key with
    | none => simp [incremented, hlive]
    | some e =>
      have hlast := h key' hkey e (by rw [heq]; exact (live?_eq_some.1 hlive).1)
      simp [incremented, hlive, hlast]
  · exact h key' hkey e he

/-! ## Pages that go -/

/-- Nothing has changed but that some pages may be gone. -/
def Shrinks (es es' : Entries) : Prop :=
  ∀ key, es'.lookup key = es.lookup key ∨ ¬ Key.IsCounter key ∧ es'.lookup key = none

theorem Shrinks.refl (es : Entries) : es.Shrinks es := fun _ => .inl rfl

theorem Shrinks.trans {es₁ es₂ es₃ : Entries} (h : es₁.Shrinks es₂) (h' : es₂.Shrinks es₃) :
    es₁.Shrinks es₃ := by
  intro key
  rcases h' key with h' | h'
  · rw [h']
    exact h key
  · exact .inr h'

theorem shrinks_erase_page (es : Entries) (video : String) (g v l o : Int) :
    es.Shrinks (es.erase (Key.page video g v l o)) := by
  intro key
  rw [lookup_erase]
  split
  · next h => exact .inr ⟨fun hkey => Key.page_ne_counter hkey video g v l o h.symm, rfl⟩
  · exact .inl rfl

theorem Shrinks.lookup_eq_some {es es' : Entries} (h : es.Shrinks es') {key : String} {e : Entry}
    (he : es'.lookup key = some e) : es.lookup key = some e := by
  rcases h key with heq | ⟨-, hnone⟩
  · rw [← heq, he]
  · rw [hnone] at he
    cases he

theorem Shrinks.lookup_counter {es es' : Entries} (h : es.Shrinks es') {key : String}
    (hkey : Key.IsCounter key) : es'.lookup key = es.lookup key :=
  (h key).resolve_right fun hnot => hnot.1 hkey

theorem Shrinks.reading_eq {es es' : Entries} (h : es.Shrinks es') {key : String}
    (hkey : Key.IsCounter key) (now : Nat) : es'.reading now key = es.reading now key :=
  reading_congr (h.lookup_counter hkey) now

end Entries

end VideoComments.Cache

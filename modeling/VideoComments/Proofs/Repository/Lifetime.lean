import VideoComments.Proofs.Config
import VideoComments.Proofs.Repository.Warmth

/-!
# Lifetimes that a cache takes

A configuration may ask for any lifetime of cached pages that is a positive number of seconds and
fits in 64 bits. The server counts lifetimes in milliseconds with a sign, so it takes those up to
`longestLifetime` alone (`accepts_ofConfig_iff`). A configuration within this limit has its pages
cached; beyond it every page that is listed is refused by the server, and the next listing is as
cold as the first (`page_is_stored_iff_lifetime_is_taken`, `longest_lifetime_is_refused`).
-/

namespace VideoComments

/-- The most seconds whose milliseconds fit in 64 bits, one of them the sign. -/
def longestLifetime : Nat := (2 ^ 63 - 1) / 1000

theorem acceptsLifetime_iff {seconds : Nat} :
    Redis.Command.acceptsLifetime seconds = true ↔ 1 ≤ seconds ∧ seconds ≤ longestLifetime := by
  have hmax : Int64.maxValue.toNatClampNeg = 2 ^ 63 - 1 := by decide
  rw [Redis.Command.acceptsLifetime, Bool.and_eq_true, decide_eq_true_eq, decide_eq_true_eq, hmax,
    longestLifetime]
  omega

namespace Config

/-- **The server takes the lifetime of a configuration unless it is too long.** -/
theorem accepts_ofConfig_iff {lookup : Lookup} {c : Config} (hc : ofLookup lookup = .ok c) :
    CacheKind.redis.Accepts (Stack.ofConfig c).lifetime ↔ c.cacheTtlSeconds ≤ longestLifetime := by
  have hpos : 1 ≤ c.cacheTtlSeconds := (ofLookup_eq_ok_iff.1 hc).cacheTtl.bounds.1
  rw [Stack.ofConfig, CacheKind.Accepts, Duration.seconds_ofSeconds, acceptsLifetime_iff,
    and_iff_right hpos]

end Config

namespace Repository

open Cache (Entries)

/-! ## Pages that are listed -/

theorem run_storePage_of_refused {lifetime : Duration} {w : World} (hw : w.CacheWorks .redis)
    (hrefused : ¬ CacheKind.redis.Accepts lifetime) (key : String) (page : List Comment) :
    ((storePage CacheKind.redis.client lifetime key page).run World.handler w).2.entries =
      w.entries := by
  obtain ⟨-, hes⟩ := CacheKind.redis_set hw key (Page.encode page) lifetime
  rw [storePage, Program.run_bind, ← hes hrefused]
  cases ((CacheKind.redis.client (.set key (Page.encode page) lifetime)).run World.handler w).1 <;>
    rfl

theorem page?_erase (es : Entries) (now : Nat) (key : String) :
    (es.erase key).page? now key = none := by
  rw [Entries.page?, Entries.live?, Entries.lookup_erase, if_pos rfl]
  rfl

/-- **A page that the server refuses is as cold after it has been listed as before.** -/
theorem page?_of_refused {inner : Repository} {lifetime : Duration} {w : World}
    (hinner : inner.SparesCache) (hw : w.CacheWorks .redis)
    (hrefused : ¬ CacheKind.redis.Accepts lifetime) {video key : String} {limit offset : Int}
    (hkey : w.entries.pageKey? w.now video limit offset = some key)
    (hcold : w.entries.page? w.now key = none) :
    (((cached inner CacheKind.redis.client lifetime (.list video limit offset)).run World.handler
      w).2.entries.page? w.now key) = none := by
  obtain ⟨g, n, -, -, rfl⟩ := Entries.pageKey?_eq_some hkey
  obtain ⟨w₁, hw₁, hes₁, hnow₁, hrun⟩ :=
    run_listCached inner lifetime hw video limit offset
  obtain ⟨answer, w₂, hw₂, -, hes₂, hrun₁⟩ :=
    run_listUnder_of_miss lifetime hinner hw₁ (by rw [hes₁, hnow₁, hcold])
  rw [hkey] at hrun
  simp only at hrun
  -- Whether the repository fails or what it answers is refused, nothing is put under the key.
  have hafter : ((listCached inner CacheKind.redis.client lifetime video limit offset).run
      World.handler w).2.entries = w₂.entries := by
    rw [hrun, hrun₁]
    cases answer with
    | error failure => rfl
    | ok page => exact run_storePage_of_refused hw₂ hrefused _ page
  rw [cached, hafter]
  rcases hes₂ with hes₂ | hes₂
  · rw [hes₂, hes₁, hcold]
  · rw [hes₂, page?_erase]

theorem repository_ofConfig {c : Config} {url : String} (hurl : c.redisUrl = some url) :
    (Stack.ofConfig c).repository = cached StoreKind.database.repository CacheKind.redis.client
      (Stack.ofConfig c).lifetime := by
  rw [Stack.repository, Stack.ofConfig, hurl]
  rfl

/-- **Pages are cached exactly under lifetimes that the server takes.** A configuration that is
accepted and names a Redis server has a lifetime of at most `longestLifetime` if and only if the
server accepts what is set with it, and if and only if a cold page that is listed is found
afterwards. -/
theorem page_is_stored_iff_lifetime_is_taken {lookup : Config.Lookup} {c : Config} {url : String}
    (hc : Config.ofLookup lookup = .ok c) (hurl : Config.IsSet lookup "REDIS_URL" url) {w : World}
    (hw : w.CacheWorks .redis) :
    (∀ key value, ((CacheKind.redis.client (.set key value (Stack.ofConfig c).lifetime)).run
        World.handler w).1 = .ok () ↔ c.cacheTtlSeconds ≤ longestLifetime) ∧
    ∀ video limit offset key page, w.entries.pageKey? w.now video limit offset = some key →
      w.entries.page? w.now key = none →
      (((Stack.ofConfig c).repository (.list video limit offset)).run World.handler w).1 =
        .ok page →
      ((((Stack.ofConfig c).repository (.list video limit offset)).run World.handler
          w).2.entries.page? w.now key = some page ↔ c.cacheTtlSeconds ≤ longestLifetime) := by
  have haccepts := Config.accepts_ofConfig_iff hc
  have hredis : c.redisUrl = some url := ((Config.ofLookup_eq_ok_iff.1 hc).redisUrl url).2 hurl
  have hinner := sparesCache_repository .database
  rw [repository_ofConfig hredis, ← haccepts]
  refine ⟨fun key value => (CacheKind.redis_set hw key value _).1, ?_⟩
  intro video limit offset key page hkey hcold hok
  by_cases htaken : CacheKind.redis.Accepts (Stack.ofConfig c).lifetime
  · have hleaves := cached_leaves hinner htaken hw (.list video limit offset)
    rw [hok] at hleaves
    exact iff_of_true (hleaves.page?_of_ok hkey).1 htaken
  · rw [page?_of_refused hinner hw htaken hkey hcold]
    exact iff_of_false (fun h => by cases h) htaken

/-- Variables that ask for a cache and for a lifetime. -/
def askingFor (seconds : String) : Config.Lookup := fun name =>
  [("DATABASE_URL", "postgres://db"), ("REDIS_URL", "redis://cache"),
   ("CACHE_TTL_SECS", seconds)].lookup name

/-- The configuration that such variables hold. -/
def configuredFor (seconds : Nat) : Config where
  databaseUrl := "postgres://db"
  runMigrations := false
  grpcAddress := .v4 ⟨0, 0, 0, 0⟩ 50051
  metricsAddress := .v4 ⟨0, 0, 0, 0⟩ 8080
  redisUrl := some "redis://cache"
  cacheTtlSeconds := seconds
  otelEndpoint := none

/-- One comment is stored, and nothing is cached. -/
def coldStart : World := ({} : World).insertRow none (.numbered 1) "v" (some "x")

/-- With a lifetime of a minute the page is kept. -/
theorem page_is_stored_iff_lifetime_is_taken_minute :
    Config.ofLookup (askingFor "60") = .ok (configuredFor 60) ∧
    Config.IsSet (askingFor "60") "REDIS_URL" "redis://cache" ∧
    coldStart.CacheWorks .redis ∧
    coldStart.entries.pageKey? coldStart.now "v" 10 0 = some (Cache.Key.page "v" 0 0 10 0) ∧
    coldStart.entries.page? coldStart.now (Cache.Key.page "v" 0 0 10 0) = none ∧
    (((Stack.ofConfig (configuredFor 60)).repository (.list "v" 10 0)).run World.handler
      coldStart).1 = .ok [⟨.numbered 1, "v", "x"⟩] ∧
    (((Stack.ofConfig (configuredFor 60)).repository (.list "v" 10 0)).run World.handler
      coldStart).2.entries.page? coldStart.now (Cache.Key.page "v" 0 0 10 0) =
        some [⟨.numbered 1, "v", "x"⟩] := by
  have hc : Config.ofLookup (askingFor "60") = .ok (configuredFor 60) := rfl
  have hurl : Config.IsSet (askingFor "60") "REDIS_URL" "redis://cache" := ⟨rfl, by decide⟩
  have hw : coldStart.CacheWorks .redis := ⟨fun _ => rfl, fun _ h => by cases h⟩
  have hkey : coldStart.entries.pageKey? coldStart.now "v" 10 0 =
      some (Cache.Key.page "v" 0 0 10 0) := by decide +kernel
  have hcold : coldStart.entries.page? coldStart.now (Cache.Key.page "v" 0 0 10 0) = none := by
    decide
  have hok : (((Stack.ofConfig (configuredFor 60)).repository (.list "v" 10 0)).run World.handler
      coldStart).1 = .ok [⟨.numbered 1, "v", "x"⟩] := by decide +kernel
  obtain ⟨-, hstored⟩ := page_is_stored_iff_lifetime_is_taken hc hurl hw
  exact ⟨hc, hurl, hw, hkey, hcold, hok, (hstored _ _ _ _ _ hkey hcold hok).2 (by decide)⟩

/-- **A lifetime that is accepted and never taken.** The server refuses what is set, and a cold page
that has been listed is not there. -/
theorem longest_lifetime_is_refused :
    Config.ofLookup (askingFor "18446744073709551615") = .ok (configuredFor (2 ^ 64 - 1)) ∧
    coldStart.CacheWorks .redis ∧
    ((CacheKind.redis.client (.set "key" "value" (Stack.ofConfig
      (configuredFor (2 ^ 64 - 1))).lifetime)).run World.handler coldStart).1 ≠ .ok () ∧
    (((Stack.ofConfig (configuredFor (2 ^ 64 - 1))).repository (.list "v" 10 0)).run World.handler
      coldStart).1 = .ok [⟨.numbered 1, "v", "x"⟩] ∧
    (((Stack.ofConfig (configuredFor (2 ^ 64 - 1))).repository (.list "v" 10 0)).run World.handler
      coldStart).2.entries = [] := by
  refine ⟨rfl, ⟨fun _ => rfl, fun _ h => by cases h⟩, ?_, ?_, ?_⟩ <;> decide +kernel

end Repository

end VideoComments

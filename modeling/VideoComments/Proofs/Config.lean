import VideoComments.Config
import VideoComments.Proofs.Net.SocketAddress

/-!
# Which configurations are accepted

`Carries` says which configuration the variables hold, in terms of the grammars of their values
alone. That configuration is what is read (`ofLookup_eq_ok_iff`), and when there is none, the first
variable that offends decides the fault (`judges_ofLookup`). Variables count only as far as they are
set, in an environment as anywhere else (`ofLookup_congr`, `isSet_text?_iff`); together these are
`accepted_exactly_when_valid`. The variables that are written for a configuration hold it again
(`Carries.toLookup`), so that it is read back unchanged (`written_configuration_is_read_back`).
-/

namespace VideoComments.Config

/-! ## Variables that are set -/

theorem trimEnd_eq_nil_iff {cs : List Char} :
    Blank.trimEnd cs = [] ↔ ∀ c ∈ cs, Blank.isSpace c = true := by
  simp [Blank.trimEnd, List.dropWhile_eq_nil_iff]

/-- A text is blank if nothing is left of it once it is trimmed. -/
theorem isBlank_iff {s : String} : Blank.isBlank s = true ↔ Blank.trim s = "" := by
  rw [Blank.isBlank, Blank.trim, List.all_eq_true, ← String.ofList_nil, String.ofList_inj,
    trimEnd_eq_nil_iff]
  constructor
  · intro h
    rw [List.dropWhile_eq_nil_iff.2 h]
    exact List.forall_mem_nil _
  · intro h
    rw [← List.dropWhile_eq_nil_iff]
    by_contra hne
    obtain ⟨c, cs, hcs⟩ := List.exists_cons_of_ne_nil hne
    have hc := List.head?_dropWhile_not Blank.isSpace s.toList
    rw [hcs] at h hc
    simp [h c List.mem_cons_self] at hc

/-- The variable has this value, of which something is left once white space is trimmed. -/
def IsSet (lookup : Lookup) (name value : String) : Prop :=
  lookup name = some value ∧ Blank.trim value ≠ ""

/-- The variable has no value, or none but white space. -/
def IsUnset (lookup : Lookup) (name : String) : Prop := ∀ value, ¬ IsSet lookup name value

theorem set?_eq_some_iff {lookup : Lookup} {name value : String} :
    set? lookup name = some value ↔ IsSet lookup name value := by
  rw [set?, Option.filter_eq_some_iff, Bool.not_eq_true', ← Bool.not_eq_true, isBlank_iff, IsSet]

theorem set?_eq_none_iff {lookup : Lookup} {name : String} :
    set? lookup name = none ↔ IsUnset lookup name := by
  simp only [Option.eq_none_iff_forall_ne_some, ne_eq, set?_eq_some_iff, IsUnset]

/-! ## What variables hold -/

/-- The text spells a truth value. -/
inductive SpellsBool : String → Bool → Prop
  | true : SpellsBool "true" true
  | false : SpellsBool "false" false

/-- The text spells a socket address. -/
def SpellsAddress (value : String) (a : SocketAddress) : Prop := a.Spells value.toList

/-- The text spells a number of seconds: digits, perhaps behind a plus sign. There is at least one
second, and no more than 64 bits hold. -/
def SpellsSeconds (value : String) (n : Nat) : Prop :=
  (∃ ds, (value.toList = ds ∨ value.toList = '+' :: ds) ∧ Decimal.Numeral ds n) ∧ 1 ≤ n ∧
    n ≤ 2 ^ 64 - 1

section Holds

variable {α : Type}

/-- The variable is set to a spelling of `x`, or it is not set and `x` is the default. -/
inductive Holds (lookup : Lookup) (name : String) (spells : String → α → Prop) (default : α) :
    α → Prop
  | set {value : String} {x : α} (h : IsSet lookup name value) (hx : spells value x) :
      Holds lookup name spells default x
  | unset (h : IsUnset lookup name) : Holds lookup name spells default default

/-- The variables hold the configuration. -/
structure Carries (lookup : Lookup) (c : Config) : Prop where
  databaseUrl : IsSet lookup "DATABASE_URL" c.databaseUrl
  runMigrations : Holds lookup "RUN_MIGRATIONS" SpellsBool false c.runMigrations
  grpcAddress :
    Holds lookup "GRPC_ADDR" SpellsAddress (.v4 ⟨0, 0, 0, 0⟩ 50051) c.grpcAddress
  metricsAddress :
    Holds lookup "METRICS_ADDR" SpellsAddress (.v4 ⟨0, 0, 0, 0⟩ 8080) c.metricsAddress
  redisUrl : ∀ value, c.redisUrl = some value ↔ IsSet lookup "REDIS_URL" value
  cacheTtl : Holds lookup "CACHE_TTL_SECS" SpellsSeconds 300 c.cacheTtlSeconds
  otelEndpoint :
    ∀ value, c.otelEndpoint = some value ↔ IsSet lookup "OTEL_EXPORTER_OTLP_ENDPOINT" value

/-- A reader of values that knows the default reads what the variable holds. -/
theorem holds_iff {lookup : Lookup} {name written : String} {spells : String → α → Prop}
    {default x : α} (hwritten : ∀ y, spells written y ↔ y = default) :
    Holds lookup name spells default x ↔ spells ((set? lookup name).getD written) x := by
  cases h : set? lookup name with
  | none =>
    rw [set?_eq_none_iff] at h
    rw [Option.getD_none, hwritten]
    constructor
    · rintro (⟨hset, -⟩ | -)
      · exact absurd hset (h _)
      · rfl
    · rintro rfl
      exact .unset h
  | some value =>
    rw [set?_eq_some_iff] at h
    constructor
    · rintro (⟨hset, hx⟩ | hunset)
      · cases h.1.symm.trans hset.1
        exact hx
      · exact absurd h (hunset value)
    · exact fun hx => .set h hx

end Holds

/-! ## Readers of values -/

theorem bool?_eq_some_iff {value : String} {b : Bool} :
    bool? value = some b ↔ SpellsBool value b := by
  constructor
  · intro h
    unfold bool? at h
    split at h
    · cases h
      exact .true
    · cases h
      exact .false
    · cases h
  · rintro (_ | _) <;> rfl

theorem runMigrationsOf_eq_ok_iff {lookup : Lookup} {b : Bool} :
    runMigrationsOf lookup = .ok b ↔ Holds lookup "RUN_MIGRATIONS" SpellsBool false b := by
  have hdefault : ∀ b, SpellsBool "false" b ↔ b = false := fun b => by
    rw [← bool?_eq_some_iff]
    cases b <;> simp [bool?]
  rw [holds_iff hdefault, ← bool?_eq_some_iff, runMigrationsOf]
  split
  · next h => simp [h, bool?, eq_comm]
  · next value h =>
    rw [h, Option.getD_some]
    split
    · next b' hb => simp [hb]
    · next hb => simp [hb]

theorem ofText?_eq_some_iff {value : String} {a : SocketAddress} :
    SocketAddress.ofText? value = some a ↔ SpellsAddress value a :=
  SocketAddress.ofList?_eq_some_iff

theorem addressOf_eq_ok_iff {lookup : Lookup} {name written : String} {default a : SocketAddress}
    {fault : Fault} (hwritten : SocketAddress.ofText? written = some default) :
    addressOf lookup name written fault = .ok a ↔ Holds lookup name SpellsAddress default a := by
  have hdefault : ∀ a, SpellsAddress written a ↔ a = default := fun a => by
    rw [← ofText?_eq_some_iff, hwritten, Option.some.injEq, eq_comm]
  rw [holds_iff hdefault, ← ofText?_eq_some_iff, addressOf]
  split
  · next a' ha => simp [ha]
  · next ha => simp [ha]

theorem grpcAddressOf_eq_ok_iff {lookup : Lookup} {a : SocketAddress} :
    addressOf lookup "GRPC_ADDR" "0.0.0.0:50051" .grpcAddress = .ok a ↔
      Holds lookup "GRPC_ADDR" SpellsAddress (.v4 ⟨0, 0, 0, 0⟩ 50051) a :=
  addressOf_eq_ok_iff (by decide)

theorem metricsAddressOf_eq_ok_iff {lookup : Lookup} {a : SocketAddress} :
    addressOf lookup "METRICS_ADDR" "0.0.0.0:8080" .metricsAddress = .ok a ↔
      Holds lookup "METRICS_ADDR" SpellsAddress (.v4 ⟨0, 0, 0, 0⟩ 8080) a :=
  addressOf_eq_ok_iff (by decide)

theorem spellsSeconds_iff {value : String} {n : Nat} :
    SpellsSeconds value n ↔ Decimal.bounded (UInt64.size - 1) value.toList = .ok n ∧ 1 ≤ n := by
  rw [Decimal.bounded_eq_ok_iff, SpellsSeconds]
  constructor
  · rintro ⟨⟨ds, hds, hn⟩, hpos, hle⟩
    exact ⟨⟨ds, hds, hn, hle⟩, hpos⟩
  · rintro ⟨⟨ds, hds, hn, hle⟩, hpos⟩
    exact ⟨⟨ds, hds, hn⟩, hpos, hle⟩

theorem cacheTtlOf_eq_ok_iff {lookup : Lookup} {n : Nat} :
    cacheTtlOf lookup = .ok n ↔ Holds lookup "CACHE_TTL_SECS" SpellsSeconds 300 n := by
  have hdefault : ∀ n, SpellsSeconds "300" n ↔ n = 300 := fun n => by
    have hbounded : Decimal.bounded (UInt64.size - 1) "300".toList = .ok 300 := by decide
    rw [spellsSeconds_iff, hbounded, Except.ok.injEq]
    omega
  rw [holds_iff hdefault, spellsSeconds_iff, cacheTtlOf]
  split
  · next fault h =>
    rw [h]
    exact iff_of_false (fun h => by cases h) fun h => by cases h.1
  · next h =>
    rw [h, Except.ok.injEq]
    refine iff_of_false (fun h => by cases h) ?_
    rintro ⟨rfl, hpos⟩
    exact absurd hpos (by decide)
  · next m hm h =>
    rw [h, Except.ok.injEq, Except.ok.injEq]
    have hpos : m ≠ 0 := hm
    omega

/-! ## Whole configurations -/

theorem bind_eq_ok_iff {ε α β : Type} {r : Except ε α} {next : α → Except ε β} {y : β} :
    (r >>= next) = .ok y ↔ ∃ x, r = .ok x ∧ next x = .ok y := by
  cases r with
  | error e => exact iff_of_false (fun h => by cases h) fun ⟨_, h, _⟩ => by cases h
  | ok x => exact ⟨fun h => ⟨x, rfl, h⟩, fun ⟨_, hx, h⟩ => by cases hx; exact h⟩

/-- **What is read is the configuration that the variables hold.** -/
theorem ofLookup_eq_ok_iff {lookup : Lookup} {c : Config} :
    ofLookup lookup = .ok c ↔ Carries lookup c := by
  constructor
  · intro h
    rw [ofLookup] at h
    split at h
    · cases h
    · next databaseUrl hurl =>
      simp only [bind_eq_ok_iff] at h
      obtain ⟨b, hb, g, hg, m, hm, n, hn, h⟩ := h
      cases h
      exact {
        databaseUrl := set?_eq_some_iff.1 hurl
        runMigrations := runMigrationsOf_eq_ok_iff.1 hb
        grpcAddress := grpcAddressOf_eq_ok_iff.1 hg
        metricsAddress := metricsAddressOf_eq_ok_iff.1 hm
        redisUrl := fun _ => set?_eq_some_iff
        cacheTtl := cacheTtlOf_eq_ok_iff.1 hn
        otelEndpoint := fun _ => set?_eq_some_iff }
  · intro h
    have redisUrl : set? lookup "REDIS_URL" = c.redisUrl :=
      Option.ext fun value => set?_eq_some_iff.trans (h.redisUrl value).symm
    have otelEndpoint : set? lookup "OTEL_EXPORTER_OTLP_ENDPOINT" = c.otelEndpoint :=
      Option.ext fun value => set?_eq_some_iff.trans (h.otelEndpoint value).symm
    rw [ofLookup, set?_eq_some_iff.2 h.databaseUrl]
    simp only [bind_eq_ok_iff]
    refine ⟨_, runMigrationsOf_eq_ok_iff.2 h.runMigrations,
      _, grpcAddressOf_eq_ok_iff.2 h.grpcAddress,
      _, metricsAddressOf_eq_ok_iff.2 h.metricsAddress,
      _, cacheTtlOf_eq_ok_iff.2 h.cacheTtl, ?_⟩
    rw [redisUrl, otelEndpoint]
    rfl

/-! ## The first fault -/

/-- The variables whose values may be refused. -/
inductive Variable
  | databaseUrl
  | runMigrations
  | grpcAddress
  | metricsAddress
  | cacheTtl
  deriving DecidableEq

namespace Variable

/-- The name of a variable. -/
def name : Variable → String
  | databaseUrl => "DATABASE_URL"
  | runMigrations => "RUN_MIGRATIONS"
  | grpcAddress => "GRPC_ADDR"
  | metricsAddress => "METRICS_ADDR"
  | cacheTtl => "CACHE_TTL_SECS"

/-- The variables in the order in which they are looked at. -/
def inOrder : List Variable :=
  [databaseUrl, runMigrations, grpcAddress, metricsAddress, cacheTtl]

/-- May the variable have the value? -/
def Accepts : Variable → String → Prop
  | databaseUrl, _ => True
  | runMigrations, value => ∃ b, SpellsBool value b
  | grpcAddress, value => ∃ a, SpellsAddress value a
  | metricsAddress, value => ∃ a, SpellsAddress value a
  | cacheTtl, value => ∃ n, SpellsSeconds value n

/-- The address of the database has to be set. Any other variable may be left out, but may not be
set to a value that it does not accept. -/
def Offends (lookup : Lookup) : Variable → Prop
  | databaseUrl => IsUnset lookup databaseUrl.name
  | v => ∃ value, IsSet lookup v.name value ∧ ¬ v.Accepts value

end Variable

/-- The variable that a fault is about. -/
def Fault.variable : Fault → Variable
  | databaseUrlMissing => .databaseUrl
  | runMigrations _ => .runMigrations
  | grpcAddress => .grpcAddress
  | metricsAddress => .metricsAddress
  | cacheTtl _ => .cacheTtl
  | cacheTtlZero => .cacheTtl

/-- **The message of a fault names its variable.** -/
theorem Fault.name_infix_message (f : Fault) :
    f.variable.name.toList <:+: f.message.toList := by
  refine List.IsPrefix.isInfix ?_
  cases f with
  | runMigrations value =>
    have hname : "RUN_MIGRATIONS".toList <+:
        "RUN_MIGRATIONS must be true or false, got `".toList := by
      decide
    have hmessage : (runMigrations value).message =
        "RUN_MIGRATIONS must be true or false, got `" ++ value ++ "`" := rfl
    rw [hmessage, String.toList_append, String.toList_append, List.append_assoc]
    exact hname.trans (List.prefix_append _ _)
  | databaseUrlMissing => decide
  | grpcAddress => decide
  | metricsAddress => decide
  | cacheTtl fault => cases fault <;> decide
  | cacheTtlZero => decide

section Judges

variable {α β : Type} {lookup : Lookup}

/-- The result is that of looking at some variables in turn: none of them offends, or the fault is
about the first that does. -/
def Judges (lookup : Lookup) (vs : List Variable) : Except Fault α → Prop
  | .ok _ => ∀ v ∈ vs, ¬ v.Offends lookup
  | .error f => ∃ before after, vs = before ++ f.variable :: after ∧
      (∀ v ∈ before, ¬ v.Offends lookup) ∧ f.variable.Offends lookup

theorem Judges.bind {vs ws : List Variable} {r : Except Fault α} {next : α → Except Fault β}
    (hr : Judges lookup vs r) (hnext : ∀ x, Judges lookup ws (next x)) :
    Judges lookup (vs ++ ws) (r >>= next) := by
  cases r with
  | error f =>
    obtain ⟨before, after, rfl, hbefore, hf⟩ := hr
    exact ⟨before, after ++ ws, by simp, hbefore, hf⟩
  | ok x =>
    show Judges lookup (vs ++ ws) (next x)
    have hx := hnext x
    cases hn : next x with
    | ok y =>
      rw [hn] at hx
      exact fun v hv => (List.mem_append.1 hv).elim (hr v) (hx v)
    | error f =>
      rw [hn] at hx
      obtain ⟨before, after, rfl, hbefore, hf⟩ := hx
      exact ⟨vs ++ before, after, by simp,
        fun v hv => (List.mem_append.1 hv).elim (hr v) (hbefore v), hf⟩

theorem Judges.cons {v : Variable} {vs : List Variable} {r : Except Fault α}
    (hv : ¬ v.Offends lookup) (hr : Judges lookup vs r) : Judges lookup (v :: vs) r := by
  have hok : Judges lookup [v] (.ok ()) := by
    rintro _ (_ | ⟨_, ⟨⟩⟩)
    exact hv
  exact hok.bind fun _ => hr

/-- A reader of one variable judges it if it fails just when no value is held. -/
theorem judges_of_holds {v : Variable} {spells : String → α → Prop} {default : α}
    {r : Except Fault α} (hr : ∀ x, r = .ok x ↔ Holds lookup v.name spells default x)
    (hfault : ∀ f, r = .error f → f.variable = v)
    (hoffends : v.Offends lookup ↔
      ∃ value, IsSet lookup v.name value ∧ ¬ ∃ x, spells value x) :
    Judges lookup [v] r := by
  cases hrx : r with
  | ok x =>
    rintro _ (_ | ⟨_, ⟨⟩⟩)
    rw [hoffends]
    rintro ⟨value, hset, hno⟩
    rcases (hr x).1 hrx with ⟨hset', hx⟩ | hunset
    · cases hset.1.symm.trans hset'.1
      exact hno ⟨x, hx⟩
    · exact hunset value hset
  | error f =>
    -- Neither the default nor any value is held, so there is a value, and it spells nothing.
    obtain rfl := hfault f hrx
    refine ⟨[], [], rfl, List.forall_mem_nil _, hoffends.2 ?_⟩
    have hnone : ∀ x, ¬ Holds lookup f.variable.name spells default x := fun x hx => by
      cases hrx.symm.trans ((hr x).2 hx)
    by_contra hno
    refine hnone default (.unset fun value hset => hno ⟨value, hset, ?_⟩)
    rintro ⟨x, hx⟩
    exact hnone x (.set hset hx)

end Judges

theorem variable_of_runMigrationsOf {lookup : Lookup} {f : Fault}
    (h : runMigrationsOf lookup = .error f) : f.variable = .runMigrations := by
  rw [runMigrationsOf] at h
  split at h
  · cases h
  · split at h <;> cases h
    rfl

theorem fault_of_addressOf {lookup : Lookup} {name written : String} {fault f : Fault}
    (h : addressOf lookup name written fault = .error f) : f = fault := by
  rw [addressOf] at h
  split at h <;> cases h
  rfl

theorem variable_of_cacheTtlOf {lookup : Lookup} {f : Fault}
    (h : cacheTtlOf lookup = .error f) : f.variable = .cacheTtl := by
  rw [cacheTtlOf] at h
  split at h <;> cases h <;> rfl

/-- **The first variable that offends decides the fault.** -/
theorem judges_ofLookup (lookup : Lookup) : Judges lookup Variable.inOrder (ofLookup lookup) := by
  rw [ofLookup]
  split
  · next h =>
    exact ⟨[], Variable.inOrder.tail, rfl, List.forall_mem_nil _, set?_eq_none_iff.1 h⟩
  · next databaseUrl h =>
    have hurl : ¬ Variable.databaseUrl.Offends lookup :=
      fun hunset => hunset databaseUrl (set?_eq_some_iff.1 h)
    have hmigrations : Judges lookup [.runMigrations] (runMigrationsOf lookup) :=
      judges_of_holds (fun _ => runMigrationsOf_eq_ok_iff)
        (fun _ => variable_of_runMigrationsOf) Iff.rfl
    have hgrpc : Judges lookup [.grpcAddress]
        (addressOf lookup "GRPC_ADDR" "0.0.0.0:50051" .grpcAddress) :=
      judges_of_holds (fun _ => grpcAddressOf_eq_ok_iff)
        (fun _ hf => by rw [fault_of_addressOf hf]; rfl) Iff.rfl
    have hmetrics : Judges lookup [.metricsAddress]
        (addressOf lookup "METRICS_ADDR" "0.0.0.0:8080" .metricsAddress) :=
      judges_of_holds (fun _ => metricsAddressOf_eq_ok_iff)
        (fun _ hf => by rw [fault_of_addressOf hf]; rfl) Iff.rfl
    have httl : Judges lookup [.cacheTtl] (cacheTtlOf lookup) :=
      judges_of_holds (fun _ => cacheTtlOf_eq_ok_iff) (fun _ => variable_of_cacheTtlOf) Iff.rfl
    have hend : ∀ c : Config, Judges lookup [] (pure c) := fun _ => List.forall_mem_nil _
    exact .cons hurl (hmigrations.bind fun _ => hgrpc.bind fun _ => hmetrics.bind fun _ =>
      httl.bind fun _ => hend _)

/-! ## What does not matter -/

/-- The variable has this text in the environment, and something is left of it once white space is
trimmed. Bytes that are no text are no value. -/
def IsSetIn (env : Environment) (name value : String) : Prop :=
  env.bytes? name = some (Utf8.encode value) ∧ Blank.trim value ≠ ""

/-- The seven variables are set alike. -/
def SetAlike (isSet isSet' : String → String → Prop) : Prop :=
  ∀ name ∈ names, ∀ value, isSet name value ↔ isSet' name value

theorem isSet_text?_iff {env : Environment} {name value : String} :
    IsSet env.text? name value ↔ IsSetIn env name value := by
  rw [IsSet, IsSetIn, Environment.text?, Option.bind_eq_some_iff]
  refine and_congr_left fun _ => ?_
  simp only [Utf8.decode?_eq_some_iff, exists_eq_right]

theorem setAlike_iff {lookup lookup' : Lookup} :
    SetAlike (IsSet lookup) (IsSet lookup') ↔
      ∀ name ∈ names, set? lookup name = set? lookup' name := by
  refine forall₂_congr fun name _ => ?_
  simp only [← set?_eq_some_iff]
  exact ⟨fun h => Option.ext h, fun h value => by rw [h]⟩

/-- **Only the variables that are set count.** -/
theorem ofLookup_congr {lookup lookup' : Lookup} (h : SetAlike (IsSet lookup) (IsSet lookup')) :
    ofLookup lookup = ofLookup lookup' := by
  have hset := setAlike_iff.1 h
  simp only [names, List.forall_mem_cons] at hset
  obtain ⟨hurl, hmigrations, hgrpc, hmetrics, hredis, httl, hotel, -⟩ := hset
  simp only [ofLookup, runMigrationsOf, addressOf, cacheTtlOf, hurl, hmigrations, hgrpc, hmetrics,
    hredis, httl, hotel]

/-- **A configuration is accepted exactly when it is valid, and the first fault is named.** The
variables of an environment count in the same way, those whose values are no text being left out. -/
theorem accepted_exactly_when_valid (lookup : Lookup) :
    (∀ c, ofLookup lookup = .ok c ↔ Carries lookup c) ∧
    ((∃ c, ofLookup lookup = .ok c) ↔ ∀ v : Variable, ¬ v.Offends lookup) ∧
    ((∃ v : Variable, v.Offends lookup) →
      ∃ f before after, ofLookup lookup = .error f ∧
        Variable.inOrder = before ++ f.variable :: after ∧
        (∀ v ∈ before, ¬ v.Offends lookup) ∧ f.variable.Offends lookup ∧
        f.variable.name.toList <:+: f.message.toList) ∧
    (∀ lookup', SetAlike (IsSet lookup) (IsSet lookup') → ofLookup lookup = ofLookup lookup') ∧
    ∀ env, SetAlike (IsSet lookup) (IsSetIn env) → ofLookup lookup = ofEnvironment env := by
  have hjudges := judges_ofLookup lookup
  have inOrder : ∀ v : Variable, v ∈ Variable.inOrder := fun v => by cases v <;> decide
  refine ⟨fun c => ofLookup_eq_ok_iff, ?_, ?_, fun lookup' h => ofLookup_congr h, fun env h => ?_⟩
  · cases hr : ofLookup lookup with
    | ok c =>
      rw [hr] at hjudges
      exact ⟨fun _ v => hjudges v (inOrder v), fun _ => ⟨c, rfl⟩⟩
    | error f =>
      rw [hr] at hjudges
      obtain ⟨before, after, -, -, hf⟩ := hjudges
      exact iff_of_false (fun ⟨_, h⟩ => by cases h) fun h => h f.variable hf
  · rintro ⟨v, hv⟩
    cases hr : ofLookup lookup with
    | ok c =>
      rw [hr] at hjudges
      exact absurd hv (hjudges v (inOrder v))
    | error f =>
      rw [hr] at hjudges
      obtain ⟨before, after, horder, hbefore, hf⟩ := hjudges
      exact ⟨f, before, after, rfl, horder, hbefore, hf, f.name_infix_message⟩
  · exact ofLookup_congr fun name hname value => (h name hname value).trans isSet_text?_iff.symm

/-- Variables of which one is blank, two are refused and one is none of the seven. -/
def untidy : Lookup := fun name =>
  [("DATABASE_URL", " postgres://db"), ("RUN_MIGRATIONS", "\u2003"),
   ("GRPC_ADDR", "[0::FFFF:1.2.3.4%07]:080"), ("METRICS_ADDR", "1.2.3.04:80"),
   ("CACHE_TTL_SECS", "+0"), ("HOME", "/root")].lookup name

/-- Other variables than those of `untidy`, but set alike; the truth value is no text. -/
def tidy : Environment :=
  .ofVariables [("CACHE_TTL_SECS", Utf8.encode "+0"), ("RUN_MIGRATIONS", [0xFF]),
    ("METRICS_ADDR", Utf8.encode "1.2.3.04:80"),
    ("GRPC_ADDR", Utf8.encode "[0::FFFF:1.2.3.4%07]:080"),
    ("DATABASE_URL", Utf8.encode " postgres://db")]

theorem setAlike_untidy : SetAlike (IsSet untidy) (IsSetIn tidy) := by
  have hset : ∀ name ∈ names, set? untidy name = set? tidy.text? name := by decide
  exact fun name hname value =>
    (setAlike_iff.2 hset name hname value).trans isSet_text?_iff

theorem accepted_exactly_when_valid_untidy :
    Variable.metricsAddress.Offends untidy ∧ SetAlike (IsSet untidy) (IsSetIn tidy) ∧
      (∃ f before after, ofLookup untidy = .error f ∧
        Variable.inOrder = before ++ f.variable :: after ∧
        (∀ v ∈ before, ¬ v.Offends untidy) ∧ f.variable.Offends untidy ∧
        f.variable.name.toList <:+: f.message.toList) ∧
      ofLookup untidy = ofEnvironment tidy := by
  have hmetrics : Variable.metricsAddress.Offends untidy := by
    have hnone : SocketAddress.ofText? "1.2.3.04:80" = none := by decide
    refine ⟨"1.2.3.04:80", ⟨by decide, by decide⟩, fun ⟨a, ha⟩ => ?_⟩
    cases hnone.symm.trans (ofText?_eq_some_iff.2 ha)
  obtain ⟨-, -, hfirst, -, henvironment⟩ := accepted_exactly_when_valid untidy
  exact ⟨hmetrics, setAlike_untidy, hfirst ⟨_, hmetrics⟩, henvironment tidy setAlike_untidy⟩

/-! ## Configurations that are written -/

theorem not_blank_of_mem {value : String} {c : Char} (hc : c ∈ value.toList)
    (hspace : Blank.isSpace c = false) : Blank.trim value ≠ "" := by
  intro h
  rw [← isBlank_iff, Blank.isBlank, List.all_eq_true] at h
  rw [h c hc] at hspace
  cases hspace

theorem not_blank_text (a : SocketAddress) : Blank.trim a.text ≠ "" := by
  have hcolon : ':' ∈ a.toList := by cases a <;> simp [SocketAddress.toList]
  refine not_blank_of_mem (c := ':') ?_ (by decide)
  rwa [SocketAddress.text, String.toList_ofList]

theorem not_isSpace_of_isDigit {c : Char} (h : Decimal.isDigit c = true) :
    Blank.isSpace c = false := by
  obtain ⟨d, hd⟩ := Option.isSome_iff_exists.1 h
  obtain ⟨hlt, rfl⟩ := (Decimal.digit?_eq_some_iff.1 hd).eq_digitChar
  have all : ∀ d < 10, Blank.isSpace (Decimal.digitChar d) = false := by decide
  exact all d hlt

theorem not_blank_ofNat (n : Nat) : Blank.trim (Decimal.ofNat n) ≠ "" := by
  obtain ⟨c, cs, hcs⟩ := List.exists_cons_of_ne_nil (Decimal.digits_ne_nil n)
  have hc : c ∈ Decimal.digits n := by rw [hcs]; exact List.mem_cons_self
  refine not_blank_of_mem (c := c) ?_ (not_isSpace_of_isDigit (Decimal.isDigit_of_mem_digits hc))
  rwa [Decimal.ofNat, String.toList_ofList]

/-- Whether it is set or not, there is at least one second, and no more than 64 bits hold. -/
theorem Holds.bounds {lookup : Lookup} {name : String} {n : Nat}
    (h : Holds lookup name SpellsSeconds 300 n) : 1 ≤ n ∧ n ≤ 2 ^ 64 - 1 := by
  cases h with
  | set _ hn => exact hn.2
  | unset => decide

/-- **The variables that are written hold the configuration.** -/
theorem Carries.toLookup {lookup : Lookup} {c : Config} (h : Carries lookup c) :
    Carries c.toLookup c where
  databaseUrl := ⟨rfl, h.databaseUrl.2⟩
  runMigrations := by
    have hspells : SpellsBool (if c.runMigrations then "true" else "false") c.runMigrations := by
      cases c.runMigrations
      · exact .false
      · exact .true
    have hblank : Blank.trim (if c.runMigrations then "true" else "false") ≠ "" := by
      cases c.runMigrations <;> decide
    exact .set ⟨rfl, hblank⟩ hspells
  grpcAddress := .set ⟨rfl, not_blank_text _⟩ (ofText?_eq_some_iff.1 (SocketAddress.ofText?_text _))
  metricsAddress :=
    .set ⟨rfl, not_blank_text _⟩ (ofText?_eq_some_iff.1 (SocketAddress.ofText?_text _))
  redisUrl value := ⟨fun hvalue => ⟨hvalue, ((h.redisUrl value).1 hvalue).2⟩, And.left⟩
  cacheTtl := by
    have hbounds : 1 ≤ c.cacheTtlSeconds ∧ c.cacheTtlSeconds ≤ 2 ^ 64 - 1 :=
      h.cacheTtl.bounds
    refine .set ⟨rfl, not_blank_ofNat _⟩ ⟨⟨_, .inl rfl, ?_⟩, hbounds⟩
    rw [Decimal.ofNat, String.toList_ofList]
    exact Decimal.numeral_digits _
  otelEndpoint value := ⟨fun hvalue => ⟨hvalue, ((h.otelEndpoint value).1 hvalue).2⟩, And.left⟩

/-- **A configuration that is written is read back unchanged**, and so is every address: its
canonical spelling is what is written for it. -/
theorem written_configuration_is_read_back :
    (∀ lookup c, ofLookup lookup = .ok c → ofLookup c.toLookup = .ok c) ∧
    ∀ a : SocketAddress, a.Canonical a.text.toList ∧ SocketAddress.ofText? a.text = some a := by
  refine ⟨fun lookup c h => ?_, fun a => ⟨?_, SocketAddress.ofText?_text a⟩⟩
  · rw [ofLookup_eq_ok_iff] at h ⊢
    exact h.toLookup
  · rw [SocketAddress.text, String.toList_ofList]
    exact SocketAddress.canonical_iff.2 rfl

/-- Variables that are not set as they would be written. -/
def unpolished : Lookup := fun name =>
  [("DATABASE_URL", " postgres://db"), ("RUN_MIGRATIONS", "true"),
   ("GRPC_ADDR", "[0:0:0::FFFF:1.2.3.4%007]:080"), ("METRICS_ADDR", "[1:0:0:2:0:0:0:0]:9"),
   ("CACHE_TTL_SECS", "+060")].lookup name

/-- The configuration that they hold. -/
def polished : Config where
  databaseUrl := " postgres://db"
  runMigrations := true
  grpcAddress := .v6 ⟨[0, 0, 0, 0, 0, 0xFFFF, 0x102, 0x304], rfl⟩ 7 80
  metricsAddress := .v6 ⟨[1, 0, 0, 2, 0, 0, 0, 0], rfl⟩ 0 9
  redisUrl := none
  cacheTtlSeconds := 60
  otelEndpoint := none

theorem written_configuration_is_read_back_polished :
    ofLookup unpolished = .ok polished ∧
      polished.grpcAddress.text = "[::ffff:1.2.3.4%7]:80" ∧
      polished.metricsAddress.text = "[1:0:0:2::]:9" ∧
      ofLookup polished.toLookup = .ok polished :=
  ⟨rfl, by decide +kernel, by decide +kernel,
    written_configuration_is_read_back.1 unpolished polished rfl⟩

end VideoComments.Config

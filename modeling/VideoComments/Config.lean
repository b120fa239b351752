import VideoComments.Environment
import VideoComments.Net.SocketAddress
import VideoComments.Text.Blank

/-!
# Configuration

The service is configured by seven variables. A variable whose value is blank counts as not set.
Only the address of the database is required; the first variable that has no acceptable value
decides the fault.
-/

namespace VideoComments

/-- The configuration of the service. -/
structure Config where
  databaseUrl : String
  runMigrations : Bool
  grpcAddress : SocketAddress
  metricsAddress : SocketAddress
  redisUrl : Option String
  cacheTtlSeconds : Nat
  otelEndpoint : Option String
  deriving DecidableEq

namespace Config

/-! ## Faults -/

/-- What is wrong with a configuration. -/
inductive Fault
  | databaseUrlMissing
  | runMigrations (value : String)
  | grpcAddress
  | metricsAddress
  | cacheTtl (fault : Decimal.Fault)
  | cacheTtlZero
  deriving DecidableEq

/-- The wording of a fault. -/
def Fault.message : Fault → String
  | databaseUrlMissing => "DATABASE_URL must be set"
  | runMigrations value => "RUN_MIGRATIONS must be true or false, got `" ++ value ++ "`"
  | grpcAddress => "GRPC_ADDR must be a socket address"
  | metricsAddress => "METRICS_ADDR must be a socket address"
  | cacheTtl _ => "CACHE_TTL_SECS must be a number of seconds"
  | cacheTtlZero => "CACHE_TTL_SECS must be greater than zero"

/-- The cause of a fault, if there is one apart from the fault itself. -/
def Fault.cause? : Fault → Option String
  | databaseUrlMissing => none
  | runMigrations _ => some "provided string was not `true` or `false`"
  | grpcAddress => some "invalid socket address syntax"
  | metricsAddress => some "invalid socket address syntax"
  | cacheTtl fault => some fault.message
  | cacheTtlZero => none

/-- The wording of a fault and of its causes. -/
def Fault.chain (f : Fault) : List String := f.message :: f.cause?.toList

/-! ## Reading -/

/-- The values of variables. -/
abbrev Lookup := String → Option String

/-- The value of a variable that is set. -/
def set? (lookup : Lookup) (name : String) : Option String :=
  (lookup name).filter fun value => !Blank.isBlank value

/-- Reads a truth value. -/
def bool? : String → Option Bool
  | "true" => some true
  | "false" => some false
  | _ => none

/-- Reads the variable that says whether to migrate. -/
def runMigrationsOf (lookup : Lookup) : Except Fault Bool :=
  match set? lookup "RUN_MIGRATIONS" with
  | none => .ok false
  | some value =>
    match bool? value with
    | some b => .ok b
    | none => .error (.runMigrations value)

/-- Reads a variable that holds an address. -/
def addressOf (lookup : Lookup) (name default : String) (fault : Fault) :
    Except Fault SocketAddress :=
  match SocketAddress.ofText? ((set? lookup name).getD default) with
  | some a => .ok a
  | none => .error fault

/-- Reads the variable that holds the lifetime of cached pages. -/
def cacheTtlOf (lookup : Lookup) : Except Fault Nat :=
  match Decimal.bounded (UInt64.size - 1) ((set? lookup "CACHE_TTL_SECS").getD "300").toList with
  | .error fault => .error (.cacheTtl fault)
  | .ok 0 => .error .cacheTtlZero
  | .ok seconds => .ok seconds

/-- Reads a configuration. -/
def ofLookup (lookup : Lookup) : Except Fault Config :=
  match set? lookup "DATABASE_URL" with
  | none => .error .databaseUrlMissing
  | some databaseUrl => do
    let runMigrations ← runMigrationsOf lookup
    let grpcAddress ← addressOf lookup "GRPC_ADDR" "0.0.0.0:50051" .grpcAddress
    let metricsAddress ← addressOf lookup "METRICS_ADDR" "0.0.0.0:8080" .metricsAddress
    let cacheTtlSeconds ← cacheTtlOf lookup
    return {
      databaseUrl
      runMigrations
      grpcAddress
      metricsAddress
      redisUrl := set? lookup "REDIS_URL"
      cacheTtlSeconds
      otelEndpoint := set? lookup "OTEL_EXPORTER_OTLP_ENDPOINT" }

/-- The names of the seven variables. -/
def names : List String :=
  ["DATABASE_URL", "RUN_MIGRATIONS", "GRPC_ADDR", "METRICS_ADDR", "REDIS_URL", "CACHE_TTL_SECS",
   "OTEL_EXPORTER_OTLP_ENDPOINT"]

/-- Reads the configuration in the environment of a process. -/
def ofEnvironment (env : Environment) : Except Fault Config := ofLookup env.text?

/-! ## Writing -/

/-- The variables that a configuration is read back from. -/
def toLookup (c : Config) : Lookup
  | "DATABASE_URL" => some c.databaseUrl
  | "RUN_MIGRATIONS" => some (if c.runMigrations then "true" else "false")
  | "GRPC_ADDR" => some c.grpcAddress.text
  | "METRICS_ADDR" => some c.metricsAddress.text
  | "REDIS_URL" => c.redisUrl
  | "CACHE_TTL_SECS" => some (Decimal.ofNat c.cacheTtlSeconds)
  | "OTEL_EXPORTER_OTLP_ENDPOINT" => c.otelEndpoint
  | _ => none

end Config

end VideoComments

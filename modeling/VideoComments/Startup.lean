import VideoComments.Config.EnvFile
import VideoComments.Database.Pool
import VideoComments.Net.Endpoint
import VideoComments.Redis.Location

/-!
# Starting the service

The service starts in steps, and the first step that fails ends it: the configuration is read,
telemetry is set up if it has an endpoint, the database is reached, the Redis server is reached if
there is one, and the address for metrics is listened on.
-/

namespace VideoComments.Startup

/-- The machine on which the service starts. -/
structure Machine where
  environment : Environment
  /-- The file of variables, if there is one. -/
  envFile : Option String := none
  database : Link
  schema : Database.Schema := {}
  redis : Link
  /-- The addresses on which somebody listens already. -/
  busy : List SocketAddress := []

/-- The step that failed. -/
inductive Fault
  | configuration (fault : Config.Fault)
  | spanExporter
  | logExporter
  | database (fault : Database.PoolFault)
  | redisLocation (error : CacheError)
  | redisConnection (error : CacheError)
  | metricsListener
  deriving DecidableEq

namespace Fault

/-- The wording of a fault. -/
def message : Fault → String
  | configuration _ => "Failed to load configuration"
  | spanExporter => "Failed to build OTLP span exporter"
  | logExporter => "Failed to build OTLP log exporter"
  | database _ => "Failed to initialize database pool"
  | redisLocation _ => "Invalid Redis URL"
  | redisConnection _ => "Failed to connect to Redis"
  | metricsListener => "Failed to bind Axum metrics listener"

/-- The wording of the causes, as far as the service itself words them. -/
def causes : Fault → List String
  | configuration fault => fault.chain
  | database fault => fault.chain
  | redisLocation error => [(Failure.cache error).message, error.message]
  | redisConnection error => [(Failure.cache error).message, error.message]
  | _ => []

/-- The first line of the report. -/
def headline (f : Fault) : String := "Error: " ++ f.message

/-- A margin of a given width. -/
def margin (width : Nat) : String := String.ofList (List.replicate width ' ')

/-- The lines of a text behind a lead; those after the first stand as far in. -/
def hang (lead text : String) : List String :=
  (text.toList.splitOn '\n').zipIdx.map fun line =>
    (if line.2 = 0 then lead else margin lead.length) ++ String.ofList line.1

/-- The lead of a numbered cause; the number is set to the right. -/
def numberLead (n : Nat) : String :=
  let number := Decimal.ofNat n
  margin (5 - number.length) ++ number ++ ": "

/-- The lines on causes; several of them are numbered. -/
def causeLines (f : Fault) : List String :=
  match f.causes with
  | [cause] => hang (margin 4) cause
  | causes => causes.zipIdx.flatMap fun c => hang (numberLead c.2) c.1

/-- The report that ends the service. -/
def report (f : Fault) : List String :=
  match f.causeLines with
  | [] => [f.headline]
  | lines => f.headline :: "" :: "Caused by:" :: lines

end Fault

/-! ## Telemetry -/

/-- The variable that asks for the compression of all telemetry. -/
def compressionName : String := "OTEL_EXPORTER_OTLP_COMPRESSION"

/-- The variable that asks for the compression of spans. -/
def spanCompressionName : String := "OTEL_EXPORTER_OTLP_TRACES_COMPRESSION"

/-- The variable that asks for the compression of log records. -/
def logCompressionName : String := "OTEL_EXPORTER_OTLP_LOGS_COMPRESSION"

/-- Can telemetry be sent to an endpoint? Nothing is sent compressed, so that any wish for it, in
the variable for all telemetry or in that of the kind, is one that cannot be met. -/
def canExport (lookup : Config.Lookup) (kindName endpoint : String) : Bool :=
  Endpoint.isValid endpoint && (lookup kindName).isNone && (lookup compressionName).isNone

/-- Sets up the exporter of spans to an endpoint. -/
def initTracer (lookup : Config.Lookup) (endpoint : String) : Except Fault Unit :=
  if canExport lookup spanCompressionName endpoint then .ok () else .error .spanExporter

/-- Sets up the exporter of log records to an endpoint. -/
def initLogger (lookup : Config.Lookup) (endpoint : String) : Except Fault Unit :=
  if canExport lookup logCompressionName endpoint then .ok () else .error .logExporter

/-- Sets up telemetry, if it is wanted. -/
def initTelemetry (lookup : Config.Lookup) (endpoint : Option String) : Except Fault Unit :=
  match endpoint with
  | none => .ok ()
  | some endpoint => do
    initTracer lookup endpoint
    initLogger lookup endpoint

/-! ## The steps -/

/-- The names of the variables that the start looks at. -/
def variableNames : List String :=
  Config.names ++ [compressionName, spanCompressionName, logCompressionName]

/-- Reaches the Redis server, if there is one. -/
def initRedis (link : Link) (url : Option String) : Except Fault Unit :=
  match url with
  | none => .ok ()
  | some url =>
    match Redis.Location.ofText url, link with
    | .error error, _ => .error (.redisLocation error)
    | .ok _, .down cause => .error (.redisConnection (.unreachable cause))
    | .ok _, .up => .ok ()

/-- The environment with the file of variables. -/
def Machine.loadedEnvironment (m : Machine) : Environment :=
  match m.envFile with
  | some file => Config.EnvFile.apply m.environment file
  | none => m.environment

/-- Starts the service, which then has this configuration. -/
def launch (m : Machine) : Except Fault Config := do
  let environment := m.loadedEnvironment
  let config ← (Config.ofEnvironment environment).mapError .configuration
  initTelemetry environment.text? config.otelEndpoint
  ((Database.connect m.database config.runMigrations m.schema).result).mapError .database
  initRedis m.redis config.redisUrl
  if m.busy.contains config.metricsAddress then throw .metricsListener
  return config

end VideoComments.Startup

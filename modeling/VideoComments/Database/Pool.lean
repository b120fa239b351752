import VideoComments.Database.Migration
import VideoComments.Failure
import VideoComments.Link
import VideoComments.Signal

/-!
# Connecting to the database

A pool of connections is there once the database has been reached and, if wanted, its schema has
been brought up to date.
-/

namespace VideoComments.Database

/-- Why there is no pool. -/
inductive PoolFault
  | connection (error : DatabaseError)
  | migration (fault : MigrationFault)
  deriving DecidableEq

/-- The wording of a database error and of its causes. -/
def errorChain (error : DatabaseError) : List String :=
  match error with
  | .unreachable cause => [error.message, cause]
  | .reported message => [error.message, message]
  | _ => [error.message]

/-- The wording of a migration fault and of its causes. -/
def MigrationFault.chain : MigrationFault → List String
  | .partiallyApplied v =>
    ["migration " ++ Decimal.ofInt v ++
      " is partially applied; fix and remove row from `_sqlx_migrations` table"]
  | .unknown v =>
    ["migration " ++ Decimal.ofInt v ++
      " was previously applied but is missing in the resolved migrations"]
  | .modified v =>
    ["migration " ++ Decimal.ofInt v ++ " was previously applied but has been modified"]
  | .script v message =>
    let error := DatabaseError.reported message
    ("while executing migration " ++ Decimal.ofInt v ++ ": " ++ error.message) :: errorChain error

/-- The wording of a fault. -/
def PoolFault.message : PoolFault → String
  | .connection _ => "Failed to connect to the database"
  | .migration _ => "Failed to run database migrations"

/-- The wording of a fault and of its causes. -/
def PoolFault.chain (f : PoolFault) : List String :=
  f.message :: match f with
    | .connection error => errorChain error
    | .migration fault => fault.chain

/-- What comes of connecting: the pool or a fault, the scripts that have run, the schema after them
and the log. -/
structure Attempt where
  result : Except PoolFault Unit
  scripts : List String := []
  schema : Schema
  logs : List LogLine := []

/-- Connects to the database and, if wanted, brings its schema up to date. -/
def connect (link : Link) (runMigrations : Bool) (schema : Schema) : Attempt :=
  match link with
  | .down cause => { result := .error (.connection (.unreachable cause)), schema }
  | .up =>
    if runMigrations then
      let (scripts, schema, fault) := schema.migrate migrations
      let result := match fault with
        | some fault => .error (.migration fault)
        | none => .ok ()
      { result, scripts, schema, logs := [⟨.info, "Running database migrations"⟩] }
    else { result := .ok (), schema }

end VideoComments.Database

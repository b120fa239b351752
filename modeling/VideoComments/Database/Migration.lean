import VideoComments.Text.Hex

/-!
# Migrations

The schema of the database is brought up to date by scripts, each applied once. The database
remembers which were applied, with the checksum of each script; a version that was applied halfway,
that is not known any more, or whose script has changed since, stops everything.
-/

namespace VideoComments.Database

/-- A script that changes the schema. -/
structure Migration where
  version : Int
  description : String
  script : String
  checksum : List UInt8
  deriving DecidableEq

/-- A migration that the database remembers. -/
structure AppliedMigration where
  version : Int
  description : String
  checksum : List UInt8
  deriving DecidableEq

/-- Creates the table of comments and an index for listings. -/
def createComments : Migration where
  version := 20250601000000
  description := "create comments"
  script :=
    "CREATE TABLE IF NOT EXISTS comments (\n    id UUID PRIMARY KEY,\n" ++
    "    video_id TEXT NOT NULL,\n    content TEXT NOT NULL,\n" ++
    "    created_at TIMESTAMPTZ NOT NULL DEFAULT NOW(),\n" ++
    "    updated_at TIMESTAMPTZ NOT NULL DEFAULT NOW()\n);\n\n" ++
    "CREATE INDEX IF NOT EXISTS idx_comments_video_id_created_at " ++
    "ON comments (video_id, created_at);\n"
  checksum :=
    (Hex.bytes? ("2fe2f9e05069ca405788aa4636c0cc42c701185681ac05bed81754f645eb913c" ++
      "0cc44c3a59e785c16fb98250ee896783").toList).getD []

/-- All migrations, in the order of their versions. -/
def migrations : List Migration := [createComments]

/-- What the database remembers of migrations. -/
structure Schema where
  applied : List AppliedMigration := []
  /-- A version that was applied halfway. -/
  dirty : Option Int := none
  /-- The message with which scripts fail, if they do. -/
  scriptFault : Option String := none
  deriving DecidableEq

/-- Why a migration stops. -/
inductive MigrationFault
  | partiallyApplied (version : Int)
  | unknown (version : Int)
  | modified (version : Int)
  | script (version : Int) (message : String)
  deriving DecidableEq

namespace Schema

/-- A version that was applied but is not among the given migrations, the lowest one first. -/
def unknownVersion? (s : Schema) (known : List Migration) : Option Int :=
  ((s.applied.map (·.version)).mergeSort).find? fun v => known.all (·.version ≠ v)

/-- Applies one migration unless it has been applied: the scripts run, and the schema after them. -/
def applyOne (s : Schema) (m : Migration) : Except MigrationFault (List String × Schema) :=
  match s.applied.find? (·.version = m.version) with
  | some a => if a.checksum = m.checksum then .ok ([], s) else .error (.modified m.version)
  | none =>
    match s.scriptFault with
    | some message => .error (.script m.version message)
    | none =>
      let entry := { version := m.version, description := m.description, checksum := m.checksum }
      .ok ([m.script], { s with applied := s.applied ++ [entry] })

/-- Applies migrations one after another: the scripts that have run, the schema after them, and the
fault that stopped them, if any. -/
def applyAll (s : Schema) : List Migration → List String × Schema × Option MigrationFault
  | [] => ([], s, none)
  | m :: rest =>
    match s.applyOne m with
    | .error fault => ([], s, some fault)
    | .ok (scripts, s) =>
      let (more, s, fault) := s.applyAll rest
      (scripts ++ more, s, fault)

/-- Brings a schema up to date. -/
def migrate (s : Schema) (known : List Migration) :
    List String × Schema × Option MigrationFault :=
  match s.dirty, s.unknownVersion? known with
  | some version, _ => ([], s, some (.partiallyApplied version))
  | none, some version => ([], s, some (.unknown version))
  | none, none => s.applyAll known

end Schema

end VideoComments.Database

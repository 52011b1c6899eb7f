import RetirementLedger.Catalog
import RetirementLedger.Json.Fields
import RetirementLedger.Retirement

namespace RetirementLedger

structure Row where
  reason : String
  retiredAtMillis : Int
  retiredBy : String
  deriving Repr, DecidableEq, Inhabited

/-- The table of retirements as this library makes it, or one made by others, whose rows it keeps as
the octets they are stored in and only counts. -/
inductive RetirementTable where
  | standard (rows : Catalog Row)
  | foreign (columns : List String) (rowCount : Nat) (row : Fin rowCount → List UInt8 := fun _ => [])

structure Database where
  versions : Option (List Int) := none
  table : Option RetirementTable := none
  indexed : Bool := false
  deriving Inhabited

inductive WriteAccess where
  | granted
  | locked
  | denied
  deriving Repr, DecidableEq, Inhabited

def WriteAccess.isGranted (a : WriteAccess) : Bool := a = .granted

/-- Why an administrative task fails: for a reason of its own, in the words shown to the operator, because
the store failed, or because it was to wait for longer than can be counted, which ends the program. -/
inductive AdminFailure where
  | refused (message : String)
  | store (failure : Failure)
  | waitTooLong
  deriving Repr, DecidableEq, Inhabited

def AdminFailure.message : AdminFailure → String
  | .refused message => message
  | .store failure => failure.message
  | .waitTooLong => "too big"

structure SchemaStatus where
  currentVersion : Int
  targetVersion : Int
  pendingVersions : List Int
  inferredFromLegacy : Bool
  deriving Repr, DecidableEq, Inhabited

namespace RetirementTable

def standardColumns : List String := ["agreement_id", "reason", "retired_at_ms", "retired_by"]

def columns : RetirementTable → List String
  | .standard _ => standardColumns
  | .foreign columns _ _ => columns

def rowCount : RetirementTable → Nat
  | .standard rows => rows.size
  | .foreign _ count _ => count

def hasColumn (t : RetirementTable) (column : String) : Bool := t.columns.contains column

def indexedColumns : List String := ["retired_at_ms", "agreement_id", "reason"]

end RetirementTable

namespace Database

def latestVersion : Int := 2

def recordedVersion (db : Database) : Int := ((db.versions.getD []).max?).getD 0

/-- The version that the database is at, and whether only its table tells. -/
def effectiveVersion (db : Database) : Int × Bool :=
  if 0 < db.recordedVersion then (db.recordedVersion, false)
  else if db.table.any (·.hasColumn "retired_at_ms") then (1, true)
  else (0, false)

def pendingFrom (current : Int) : List Int :=
  (List.range (latestVersion - current).toNat).map fun (i : Nat) => current + 1 + (i : Int)

def status (db : Database) : SchemaStatus :=
  let (current, inferred) := db.effectiveVersion
  ⟨current, latestVersion, pendingFrom current, inferred⟩

def recordVersion (db : Database) (version : Int) : Database :=
  let versions := db.versions.getD []
  if versions.contains version then { db with versions := some versions }
  else { db with versions := some (versions ++ [version]) }

abbrev Task (α : Type) := ExceptT AdminFailure (StateM Database) α

def refuse {α : Type} (message : String) : Task α := throw (.refused message)

def noVersionsMessage : String := "failed to apply schema_migrations table"

def ensureVersions (access : WriteAccess) : Task Unit := do
  let db ← get
  if db.versions.isNone then
    if access.isGranted then set { db with versions := some [] }
    else refuse noVersionsMessage

def adoptTable (access : WriteAccess) (table : RetirementTable) : Task Unit := do
  if !table.hasColumn "retired_at_ms" then
    refuse "database schema is invalid: agreement_retirements has no retired_at_ms column"
  else if access.isGranted then modify (·.recordVersion 1)
  else refuse "failed to record migration version 1"

def createTable (access : WriteAccess) : Task Unit := do
  if access.isGranted then modify fun db => { db.recordVersion 1 with table := some (.standard ∅) }
  else refuse "failed to apply migration v1"

def bootstrap (access : WriteAccess) : Task Unit := do
  let db ← get
  if db.recordedVersion = 0 then
    match db.table with
    | some table => adoptTable access table
    | none => createTable access

def createIndexes (access : WriteAccess) : Task Unit := do
  let db ← get
  if db.recordedVersion < 2 then
    let buildable := db.table.any fun t => RetirementTable.indexedColumns.all t.hasColumn
    if !buildable || (!access.isGranted && !db.indexed) then
      refuse "failed to create retirement indexes"
    else if access.isGranted then set { db.recordVersion 2 with indexed := true }
    else refuse "failed to record migration version 2"

def checkVersion : Task Unit := do
  let db ← get
  if db.recordedVersion ≠ latestVersion then
    refuse ("unsupported schema version " ++ toString db.recordedVersion ++ "; expected " ++
      toString latestVersion)

/-- The stages of a migration. A failure stops it after the stages before. -/
def stages (access : WriteAccess) : List (Task Unit) :=
  [ensureVersions access, bootstrap access, createIndexes access, checkVersion]

def migrate (access : WriteAccess) : Task Unit := (stages access).forM id

def schemaStatus (access : WriteAccess) : Task SchemaStatus := do
  ensureVersions access
  return (← get).status

end Database

namespace SchemaStatus

def fields : List (List String) :=
  [["current_version"], ["target_version"], ["pending_versions"], ["inferred_from_legacy"]]

def toJson (s : SchemaStatus) : Json :=
  .ofFields [("current_version", .integer s.currentVersion),
    ("target_version", .integer s.targetVersion),
    ("pending_versions", .array (s.pendingVersions.map .integer)),
    ("inferred_from_legacy", .bool s.inferredFromLegacy)]

def ofJson? (j : Json) : Option SchemaStatus := do
  let [current, target, pending, inferred] ← j.slots? fields | none
  return ⟨← current.required Json.signed64?, ← target.required Json.signed64?,
    ← pending.required (Json.list? Json.signed64?), ← inferred.required Json.bool?⟩

end SchemaStatus

end RetirementLedger

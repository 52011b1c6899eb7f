import RetirementLedger.Database.Connection
import RetirementLedger.Database.Image
import RetirementLedger.Snapshot.Basic

namespace RetirementLedger

structure MigrateResult where
  dryRun : Bool
  currentVersion : Int
  targetVersion : Int
  wouldApply : List Int
  inferredFromLegacy : Bool
  afterVersion : Option Int
  upToDate : Option Bool
  deriving Repr, DecidableEq, Inhabited

structure IntegrityReport where
  quickCheckOk : Bool
  quickCheckMessage : String
  recordCount : Int
  schemaStatus : SchemaStatus
  deriving Repr, DecidableEq, Inhabited

namespace Database

def migrateReporting (dryRun : Bool) (access : WriteAccess) : Task MigrateResult := do
  let before ← schemaStatus access
  let report : MigrateResult :=
    { dryRun
      currentVersion := before.currentVersion
      targetVersion := before.targetVersion
      wouldApply := before.pendingVersions
      inferredFromLegacy := before.inferredFromLegacy
      afterVersion := none
      upToDate := none }
  if dryRun then return report
  else
    migrate access
    let after ← schemaStatus access
    return { report with
      afterVersion := some after.currentVersion
      upToDate := some after.pendingVersions.isEmpty }

/-- A database of this model is never damaged, so the quick check always passes. -/
def checkIntegrity (access : WriteAccess) : Task IntegrityReport := do
  let count := ((← get).table.map RetirementTable.rowCount).getD 0
  return ⟨true, "ok", count, ← schemaStatus access⟩

end Database

namespace Administration
open Disk Snapshot

def schemaStatus (address : DatabaseAddress) : DiskTask SchemaStatus :=
  onDatabase address Database.schemaStatus

def migrate (address : DatabaseAddress) (dryRun : Bool) : DiskTask MigrateResult :=
  onDatabase address (Database.migrateReporting dryRun)

def integrity (address : DatabaseAddress) : DiskTask IntegrityReport :=
  onDatabase address Database.checkIntegrity "failed to run PRAGMA quick_check"

def octets? (disk : Disk) (path : String) : Option (List UInt8) :=
  (disk.found? path).bind DiskNode.octets?

def snapshotDir (disk : Disk) (dir : String) : SnapshotDir :=
  ⟨octets? disk (fileIn dir Snapshot.recordsFile), octets? disk (fileIn dir Snapshot.manifestFile)⟩

def putFile (path : String) (content : Option (List UInt8)) (disk : Disk) : Disk :=
  (content.bind (disk.writeFile path)).getD disk

def exportSnapshot (address : DatabaseAddress) (dir : String) (now : String) :
    DiskTask Manifest := do
  let listing ← onDatabase address fun access => do
    Database.migrate access
    return (← get).list
  let (isThere, disk) := (← get).makeDirectories dir
  set disk
  if !isThere then throw (.refused ("failed to create export directory " ++ dir))
  let records ← match listing with
    | .ok records => pure records
    | .error f => throw (.store f)
  let recordsPath := fileIn dir Snapshot.recordsFile
  let manifestPath := fileIn dir Snapshot.manifestFile
  if (disk.writeFile recordsPath []).isNone then
    throw (.refused ("failed to create export file " ++ recordsPath))
  let room : WriteRoom :=
    { manifest := if (disk.writeFile manifestPath []).isNone then some 0 else none }
  let (result, files) := Snapshot.exportTo dir records now room (snapshotDir disk dir)
  set (putFile manifestPath files.manifest (putFile recordsPath files.records disk))
  result

def importSnapshot (address : DatabaseAddress) (dir : String) : DiskTask ImportSummary := do
  let connection ← Connection.opened address
  let files := snapshotDir (← get) dir
  connection.administer fun access => Database.importSnapshot access dir files

end Administration

namespace StoreFile
open Disk

def openStore (address : DatabaseAddress) : DiskTask Unit := onDatabase address Database.migrate

def insert (address : DatabaseAddress) (r : Retirement) : DiskWork Receipt :=
  onRecords address fun access => Database.insert access r

def find? (address : DatabaseAddress) (agreementId : String) : DiskWork (Option Retirement) :=
  onRecords address fun _ => do (← get).find? agreementId

def select (address : DatabaseAddress) (s : Selection) : DiskWork (List Retirement) :=
  onRecords address fun _ => do (← get).select s

end StoreFile

namespace MigrateResult

def fields : List (List String) :=
  [["dry_run"], ["current_version"], ["target_version"], ["would_apply_versions"],
    ["inferred_from_legacy"], ["after_version"], ["up_to_date"]]

def toJson (m : MigrateResult) : Json :=
  .ofFields [("dry_run", .bool m.dryRun), ("current_version", .integer m.currentVersion),
    ("target_version", .integer m.targetVersion),
    ("would_apply_versions", .array (m.wouldApply.map .integer)),
    ("inferred_from_legacy", .bool m.inferredFromLegacy),
    ("after_version", .ofOption .integer m.afterVersion),
    ("up_to_date", .ofOption .bool m.upToDate)]

def ofJson? (j : Json) : Option MigrateResult := do
  let [dryRun, current, target, apply, inferred, after, upToDate] ← j.slots? fields | none
  return ⟨← dryRun.required Json.bool?, ← current.required Json.signed64?,
    ← target.required Json.signed64?, ← apply.required (Json.list? Json.signed64?),
    ← inferred.required Json.bool?, ← after.nullable Json.signed64?, ← upToDate.nullable Json.bool?⟩

end MigrateResult

namespace IntegrityReport

def fields : List (List String) :=
  [["quick_check_ok"], ["quick_check_message"], ["record_count"], ["schema_status"]]

def toJson (r : IntegrityReport) : Json :=
  .ofFields [("quick_check_ok", .bool r.quickCheckOk),
    ("quick_check_message", .text r.quickCheckMessage), ("record_count", .integer r.recordCount),
    ("schema_status", r.schemaStatus.toJson)]

def ofJson? (j : Json) : Option IntegrityReport := do
  let [ok, message, count, status] ← j.slots? fields | none
  return ⟨← ok.required Json.bool?, ← message.required Json.text?,
    ← count.required Json.signed64?, ← status.required SchemaStatus.ofJson?⟩

end IntegrityReport

end RetirementLedger

import RetirementLedger.CommandLine.Operator
import RetirementLedger.Proofs.Disk.Reopening
import RetirementLedger.Proofs.Migration

namespace RetirementLedger

namespace Database

variable {db : Database} {access : WriteAccess}

theorem pendingFrom_eq_nil_iff {current : Int} : pendingFrom current = [] ↔ latestVersion ≤ current := by
  rw [pendingFrom, List.map_eq_nil_iff, List.range_eq_nil]
  omega

theorem status_of_recorded (recorded : 0 < db.recordedVersion) :
    db.status = ⟨db.recordedVersion, latestVersion, pendingFrom db.recordedVersion, false⟩ := by
  rw [Database.status, effectiveVersion, if_pos recorded]

theorem pendingVersions_eq_nil_iff : db.status.pendingVersions = [] ↔ latestVersion ≤ db.recordedVersion := by
  by_cases recorded : 0 < db.recordedVersion
  · rw [status_of_recorded recorded]
    exact pendingFrom_eq_nil_iff
  · have early : db.status.pendingVersions = pendingFrom db.effectiveVersion.1 := rfl
    have behind : db.effectiveVersion.1 < latestVersion := by
      rw [effectiveVersion, if_neg recorded]
      split <;> decide
    rw [early, pendingFrom_eq_nil_iff]
    simp only [latestVersion] at behind ⊢
    omega

def settledResult (version : Int) : Except AdminFailure Unit :=
  if version = latestVersion then .ok ()
  else .error (.refused ("unsupported schema version " ++ toString version ++ "; expected " ++ toString latestVersion))

theorem settledResult_eq_ok_iff {version : Int} : settledResult version = .ok () ↔ version = latestVersion := by
  unfold settledResult
  split
  · next current => exact iff_of_true rfl current
  · next other => exact iff_of_false (by intro same; cases same) other

theorem run_migrate_settled (settled : latestVersion ≤ db.recordedVersion) :
    (migrate access).run db = (settledResult db.recordedVersion, db) := by
  simp only [latestVersion] at settled
  have noVersions : (ensureVersions access).IsIdle db :=
    (ensureVersions_does access).idle db (versions_ne_none (by omega))
  have noTable : (bootstrap access).IsIdle db := (bootstrap_does access).idle db (by omega)
  have noIndexes : (createIndexes access).IsIdle db := (createIndexes_does access).idle db (by omega)
  have checked : checkVersion.run db = (settledResult db.recordedVersion, db) := by
    unfold checkVersion settledResult
    simp only [run_bind, run_get]
    by_cases current : db.recordedVersion = latestVersion
    · rw [if_neg (not_not_intro current), if_pos current]
      rfl
    · rw [if_pos current, if_neg current]
      rfl
  rw [migrate, stages, Task.run_forM_of_ok noVersions, Task.run_forM_of_ok noTable,
    Task.run_forM_of_ok noIndexes, Task.run_forM_cons, checked]
  rcases settledResult db.recordedVersion with f | _ <;> rfl

theorem run_schemaStatus_settled (settled : latestVersion ≤ db.recordedVersion) :
    (schemaStatus access).run db = (.ok ⟨db.recordedVersion, latestVersion, [], false⟩, db) := by
  simp only [latestVersion] at settled
  have idle : (ensureVersions access).IsIdle db :=
    (ensureVersions_does access).idle db (versions_ne_none (by omega))
  rw [run_schemaStatus, idle]
  dsimp only
  rw [status_of_recorded (by omega), pendingFrom_eq_nil_iff.mpr settled]

theorem run_migrateReporting_settled (settled : latestVersion ≤ db.recordedVersion) :
    (migrateReporting false access).run db =
      ((settledResult db.recordedVersion).map fun () => ⟨false, 2, 2, [], false, some 2, some true⟩, db) := by
  rw [run_migrateReporting_real, run_migrate_settled settled]
  unfold settledResult
  by_cases current : db.recordedVersion = latestVersion
  · rw [if_pos current, status_of_current current]
    rfl
  · rw [if_neg current]
    rfl

theorem run_checkIntegrity_settled (settled : latestVersion ≤ db.recordedVersion) :
    ∃ count, (checkIntegrity access).run db =
      (.ok ⟨true, "ok", count, ⟨db.recordedVersion, latestVersion, [], false⟩⟩, db) := by
  refine ⟨(db.table.map RetirementTable.rowCount).getD 0, ?_⟩
  unfold checkIntegrity
  simp only [run_bind, run_get, run_schemaStatus_settled settled, run_pure]

theorem settled_of_run_schemaStatus {status : SchemaStatus} {after : Database}
    (reported : (schemaStatus access).run db = (.ok status, after)) (settled : status.pendingVersions = []) :
    latestVersion ≤ db.recordedVersion := by
  rw [run_schemaStatus] at reported
  rcases versions : (ensureVersions access).run db with ⟨f | _, mid⟩
  · rw [versions] at reported
    cases reported
  · rw [versions] at reported
    cases reported
    rw [(ensureVersions_of_ok versions).1] at settled
    exact pendingVersions_eq_nil_iff.mp settled

end Database

namespace Disk

theorem run_onDatabase {α : Type} (address : DatabaseAddress) (task : WriteAccess → Database.Task α)
    (firstFailure : String) (disk : Disk) :
    (onDatabase address task firstFailure).run disk =
      match (Connection.connect address).run disk with
      | (.ok c, after) =>
          if c.isReadable then
            (((task c.access).run c.database).1, c.keep ((task c.access).run c.database).2 after)
          else (.error (.refused firstFailure), after)
      | (.error f, after) => (.error f.toAdminFailure, after) := by
  unfold onDatabase
  rw [run_bind]
  have opening : (Connection.opened address).run disk =
      match (Connection.connect address).run disk with
      | (.ok c, after) => (.ok c, after)
      | (.error f, after) => (.error f.toAdminFailure, after) := rfl
  rw [opening]
  rcases (Connection.connect address).run disk with ⟨f | c, after⟩
  · rfl
  · dsimp only
    unfold Connection.administer
    split <;> rfl

end Disk

namespace Connection
open Disk

/-- What opening leaves behind is what every task leaves that does not change the database. -/
structure Settles (c : Connection) (address : DatabaseAddress) (start after : Disk) : Prop where
  connected : (connect address).run start = (.ok c, after)
  readable : c.isReadable = true
  kept : c.keep c.database after = after

variable {c : Connection} {address : DatabaseAddress} {start after : Disk}

theorem Settles.again (settles : c.Settles address start after) (known : c.database.versions ≠ none) :
    c.Settles address after after :=
  ⟨(connect_again settles.connected settles.readable known).1, settles.readable, settles.kept⟩

theorem Settles.run_onDatabase {α : Type} {task : WriteAccess → Database.Task α} {result : Except AdminFailure α}
    {firstFailure : String} (settles : c.Settles address start after)
    (done : (task c.access).run c.database = (result, c.database)) :
    (onDatabase address task firstFailure).run start = (result, after) := by
  rw [Disk.run_onDatabase, settles.connected]
  dsimp only
  rw [if_pos settles.readable, done, settles.kept]

end Connection

theorem Operator.run_administer_of_ok {α : Type} {task : DiskTask α} {result : α → Outcome} {disk after : Disk}
    {a : α} (done : task.run disk = (.ok a, after)) : (administer task result).run disk = (result a, after) := by
  have done' : StateT.run (ExceptT.run task) disk = (.ok a, after) := done
  rw [administer, StateT.run_bind, done']
  rfl

namespace Administration
open Database Disk Connection

variable {disk after : Disk} {address : DatabaseAddress} {status : SchemaStatus}

theorem exists_reported (reported : (schemaStatus address).run disk = (.ok status, after))
    (settled : status.pendingVersions = []) :
    ∃ c : Connection, latestVersion ≤ c.database.recordedVersion ∧
      status = ⟨c.database.recordedVersion, latestVersion, [], false⟩ ∧
      c.Settles address disk after ∧ c.Settles address after after := by
  unfold schemaStatus at reported
  rw [run_onDatabase] at reported
  rcases connected : (connect address).run disk with ⟨f | c, opened⟩
  · rw [connected] at reported
    cases reported
  · rw [connected] at reported
    dsimp only at reported
    split at reported
    · next readable =>
        obtain ⟨answer, left⟩ := Prod.mk.inj reported
        have recorded : latestVersion ≤ c.database.recordedVersion :=
          settled_of_run_schemaStatus (Prod.ext answer rfl) settled
        have known : c.database.versions ≠ none := versions_ne_none (by
          simp only [latestVersion] at recorded
          omega)
        have kept : c.keep c.database opened = opened := (connect_again connected readable known).2
        rw [run_schemaStatus_settled recorded] at answer left
        obtain rfl : opened = after := kept.symm.trans left
        have settles : c.Settles address disk opened := ⟨connected, readable, kept⟩
        exact ⟨c, recorded, (Except.ok.inj answer).symm, settles, settles.again known⟩
    · cases reported

def onlyPlace : Place := ⟨false, ["db"]⟩

def holding (db : Database) : Disk := Disk.put ∅ onlyPlace (.database { database := db })

theorem node?_holding (db : Database) : (holding db).node? onlyPlace = some (.database { database := db }) := by
  rw [holding, node?, put, Catalog.find?_insert, if_pos rfl]

theorem databasePlace?_holding (db : Database) : (holding db).databasePlace? "db" = some onlyPlace := by
  have parts : Path.steps "db" = ["db"] := by
    simp +decide [Path.steps, String.splitOn, String.splitOnAux]
  have relative : Path.start "db" = ⟨false, []⟩ := by simp [Path.start]
  have passable : (holding db).isPassable "db" = true := by
    simp +decide [Disk.isPassable, Path.places, parts, relative, Place.enter, Place.below, Disk.follow,
      Disk.isDirectory, Disk.isName, String.contains_char_eq]
  refine databasePlace?_eq_some_iff.mpr ⟨?_, by decide, passable, ?_, ?_⟩
  · simp +decide [Path.place, parts, relative, Place.enter, Place.below, onlyPlace]
  · simp +decide [Place.above, Disk.isDirectory, onlyPlace]
  · rw [Disk.isDirectory, node?_holding]
    rfl

theorem isDirectory_beside_holding (db : Database) :
    ∀ suffix ∈ [journalSuffix, logSuffix, indexSuffix],
      (holding db).isDirectory (onlyPlace.beside suffix) = false := by
  simp +decide [holding, onlyPlace, Disk.isDirectory, Place.beside, Place.above, Place.below, node?, put]

theorem exists_connect_holding (db : Database) :
    ∃ c after, (connect { name := "db" }).run (holding db) = (.ok c, after) ∧ c.isReadable = true ∧
      c.database = db := by
  have named : Location.ofName? "db" = some (.file "db" {}) := by
    simp +decide [Location.ofName?, Location.ofPath, String.contains_char_eq]
  have alone := isDirectory_beside_holding db
  simp only [List.forall_mem_cons] at alone
  obtain ⟨journal, log, index, -⟩ := alone
  have held : (holding db).databaseFile? onlyPlace = some { database := db } := databaseFile?_put _ _ _
  have isNamed : isName ((onlyPlace.beside journalSuffix).names.getLast?.getD "") = true := by
    simp +decide [isName, onlyPlace, Place.beside, Place.above, Place.below, String.contains_char_eq]
  have free : (holding db).obstruction? onlyPlace { database := db } {} = none := by
    simp [obstruction?, journal, log, isNamed]
  have prepared : (setUp onlyPlace {}).run (holding db) = (.ok { database := db, writeAhead := true },
      (holding db).prepared onlyPlace { database := db, writeAhead := true }) := by
    simp only [setUp, run_bind, run_get, held, free]
    rfl
  have connected : (connect { name := "db" }).run (holding db) = _ := run_connect_file named
    (run_openFile_of_node "db" .create (databasePlace?_holding db) (node?_holding db)) rfl prepared
  refine ⟨_, _, connected, ?_, rfl⟩
  simp [(clears_prepared (node?_holding db)).isDirectory, index]

theorem exists_reported_holding {db : Database} (settled : latestVersion ≤ db.recordedVersion) :
    ∃ after, (schemaStatus { name := "db" }).run (holding db) =
      (.ok ⟨db.recordedVersion, latestVersion, [], false⟩, after) := by
  obtain ⟨c, after, connected, readable, rfl⟩ := exists_connect_holding db
  refine ⟨c.keep c.database after, ?_⟩
  rw [schemaStatus, run_onDatabase, connected]
  dsimp only
  rw [if_pos readable, run_schemaStatus_settled settled]

/-- A report without pending versions can be trusted at the latest version. A database at a later one is
reported in the same way, and then refused. -/
theorem reported_schema_opens (reported : (schemaStatus address).run disk = (.ok status, after))
    (settled : status.pendingVersions = []) :
    2 ≤ status.currentVersion ∧ status = ⟨status.currentVersion, 2, [], false⟩ ∧
    (settledResult status.currentVersion = .ok () ↔ status.currentVersion = 2) ∧
    (∀ (i : Operator.Invocation) now, i.settings.address = address → i.command = .schemaVersion →
      ∃ fields, (Operator.run i now).run disk = (.printed (.ofFields fields), after) ∧
        ("up_to_date", .bool true) ∈ fields) ∧
    (∀ start, start = disk ∨ start = after →
      (∃ count, (integrity address).run start = (.ok ⟨true, "ok", count, status⟩, after)) ∧
      (migrate address false).run start = ((settledResult status.currentVersion).map fun () =>
        ⟨false, 2, 2, [], false, some 2, some true⟩, after) ∧
      (StoreFile.openStore address).run start = (settledResult status.currentVersion, after)) ∧
    ∀ (access other : WriteAccess) (db left : Database),
      (Database.schemaStatus access).run db = (.ok status, left) →
        left = db ∧ (Database.migrate other).run db = (settledResult status.currentVersion, db) := by
  obtain ⟨c, recorded, rfl, settles, again⟩ := exists_reported reported settled
  refine ⟨recorded, rfl, settledResult_eq_ok_iff, fun i now here command => ?_, fun start either => ?_,
    fun access other held left told => ?_⟩
  · have printed : (Operator.run i now).run disk = (Operator.schemaReport
        ⟨c.database.recordedVersion, latestVersion, [], false⟩, after) := by
      unfold Operator.run
      rw [command, here]
      exact Operator.run_administer_of_ok reported
    exact ⟨_, printed, by simp⟩
  · have settled' : c.Settles address start after := by
      rcases either with rfl | rfl
      · exact settles
      · exact again
    obtain ⟨count, intact⟩ := run_checkIntegrity_settled recorded
    refine ⟨⟨count, settled'.run_onDatabase intact⟩, ?_, ?_⟩
    · exact settled'.run_onDatabase (run_migrateReporting_settled recorded)
    · exact settled'.run_onDatabase (run_migrate_settled recorded)
  · have recorded' := settled_of_run_schemaStatus told rfl
    rw [run_schemaStatus_settled recorded'] at told
    obtain ⟨same, rfl⟩ := Prod.mk.inj told
    have version : held.recordedVersion = c.database.recordedVersion :=
      congrArg SchemaStatus.currentVersion (Except.ok.inj same)
    exact ⟨rfl, version ▸ run_migrate_settled recorded'⟩

theorem reported_schema_opens_foreign :
    let db : Database := { versions := some [1, 2], table := some (.foreign ["agreement_id"] 0) }
    (Database.migrate .denied).run db = (.ok (), db) ∧
      ∃ after, (schemaStatus { name := "db" }).run (holding db) = (.ok ⟨2, 2, [], false⟩, after) ∧
        (StoreFile.openStore { name := "db" }).run after = (.ok (), after) := by
  intro db
  have current : latestVersion ≤ db.recordedVersion := by decide
  obtain ⟨after, reported⟩ := exists_reported_holding current
  obtain ⟨-, -, -, -, opens, held⟩ := reported_schema_opens reported rfl
  exact ⟨(held .granted .denied db db (run_schemaStatus_settled current)).2, after, reported,
    (opens after (.inr rfl)).2.2⟩

theorem later_schema_not_opened :
    ¬ ∀ (address : DatabaseAddress) (disk after : Disk) (status : SchemaStatus),
      (schemaStatus address).run disk = (.ok status, after) → status.pendingVersions = [] →
        (StoreFile.openStore address).run after = (.ok (), after) := by
  intro trusted
  obtain ⟨after, reported⟩ := @exists_reported_holding { versions := some [3] } (by decide)
  obtain ⟨c, recorded, same, -, again⟩ := exists_reported reported rfl
  have version : c.database.recordedVersion = 3 := (congrArg SchemaStatus.currentVersion same).symm
  have opened := trusted _ _ after _ reported rfl
  rw [StoreFile.openStore, again.run_onDatabase (run_migrate_settled recorded), version] at opened
  cases opened

end Administration

end RetirementLedger

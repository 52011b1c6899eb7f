import RetirementLedger.Administration
import RetirementLedger.Proofs.Database.Migration
import RetirementLedger.Proofs.Database.Stages

namespace RetirementLedger.Database
open RetirementTable

variable {db after : Database} {access : WriteAccess}

structure KeepsRows (before after : Database) : Prop where
  contents : after.contents = before.contents
  table : ∀ table, before.table = some table → after.table = some table

theorem KeepsRows.of_table (table : after.table = db.table) : KeepsRows db after :=
  ⟨congrArg (·.getD (.standard ∅)) table, fun _ held => table.trans held⟩

theorem KeepsRows.trans {last : Database} (first : KeepsRows db after) (second : KeepsRows after last) :
    KeepsRows db last :=
  ⟨second.contents.trans first.contents, fun found held => second.table found (first.table found held)⟩

theorem keepsRows_bootstrapped (db : Database) : KeepsRows db db.bootstrapped :=
  ⟨rfl, fun found held => by rw [bootstrapped, contents, held]; rfl⟩

theorem keepsRows_withIndexes (db : Database) : KeepsRows db db.withIndexes :=
  .of_table (table_recordVersion db 2)

theorem keepsRows_migrate (access : WriteAccess) (db : Database) :
    KeepsRows db ((migrate access).run db).2 := by
  refine Task.run_forM_preserves ?_ (.of_table rfl)
  simp only [stages, List.forall_mem_cons]
  refine ⟨?_, ?_, ?_, ?_, List.forall_mem_nil _⟩
  · exact fun d kept => (ensureVersions_does access).preserves (fun _ => kept.trans (.of_table rfl)) kept
  · exact fun d kept => (bootstrap_does access).preserves
      (fun _ => kept.trans (keepsRows_bootstrapped d)) kept
  · exact fun d kept => (createIndexes_does access).preserves
      (fun _ => kept.trans (keepsRows_withIndexes d)) kept
  · exact fun d kept => checkVersion_does.preserves (fun _ => kept) kept

theorem recordedVersion_of_migrate (done : (migrate access).run db = (.ok (), after)) :
    after.recordedVersion = latestVersion := by
  have idle : checkVersion.IsIdle after :=
    Task.isIdle_of_run (stages_steady access) (stages_ordered access) done _ (by simp [stages])
  exact Classical.not_not.mp (checkVersion_does.of_ok idle).1

theorem run_schemaStatus (access : WriteAccess) (db : Database) :
    (schemaStatus access).run db =
      match (ensureVersions access).run db with
      | (.ok (), after) => (.ok after.status, after)
      | (.error f, after) => (.error f, after) := by
  unfold schemaStatus
  simp only [run_bind, run_get, run_pure]
  rcases (ensureVersions access).run db with ⟨_ | _, mid⟩ <;> rfl

theorem status_of_current (current : db.recordedVersion = latestVersion) :
    db.status = ⟨2, 2, [], false⟩ := by
  have recorded : db.recordedVersion = 2 := current
  have effective : db.effectiveVersion = (2, false) := by
    rw [effectiveVersion, recorded]
    rfl
  rw [Database.status, effective]
  rfl

theorem run_schemaStatus_current (access : WriteAccess) (current : db.recordedVersion = latestVersion) :
    (schemaStatus access).run db = (.ok ⟨2, 2, [], false⟩, db) := by
  have recorded : db.recordedVersion = 2 := current
  have idle : (ensureVersions access).IsIdle db :=
    (ensureVersions_does access).idle db (versions_ne_none (by omega))
  rw [run_schemaStatus, idle]
  dsimp only
  rw [status_of_current current]

/-- Where no version is recorded and the table, if there is one, has the columns that belong to it, one
who may write migrates the database to the end. -/
theorem run_migrate_unrecorded (unrecorded : db.recordedVersion = 0)
    (columns : ∀ table, db.table = some table → ∀ c ∈ standardColumns, table.hasColumn c = true) :
    ∃ after, (migrate .granted).run db = (.ok (), after) ∧
      (∀ v, v ∈ after.versions.getD [] ↔ v ∈ db.versions.getD [] ∨ v = 1 ∨ v = 2) ∧
      after.table = some db.contents ∧ after.indexed = true := by
  -- The versions are there, and nothing is recorded in them yet.
  obtain ⟨one, versions⟩ := exists_ensureVersions db
  have listed : one.recordedVersion = 0 ∧ one.table = db.table ∧
      one.versions.getD [] = db.versions.getD [] := by
    rcases ((ensureVersions_does .granted).of_ok versions).2 with ⟨-, rfl⟩ | ⟨-, rfl⟩
    · exact ⟨unrecorded, rfl, rfl⟩
    · exact ⟨unrecorded, rfl, rfl⟩
  obtain ⟨unrecorded', table, recorded⟩ := listed
  -- The table is there, at version 1.
  obtain ⟨two, bootstrap⟩ := exists_bootstrap fun found held =>
    columns found (table ▸ held) _ (by simp [standardColumns])
  have adopted : two = one.bootstrapped := by
    rcases ((bootstrap_does .granted).of_ok bootstrap).2 with ⟨free, -⟩ | ⟨-, same⟩
    · exact absurd unrecorded' free
    · exact same
  have held : two.table = some db.contents := by
    rw [adopted, Database.bootstrapped, contents, contents, table]
  have indexable : RetirementTable.indexedColumns.all db.contents.hasColumn = true := by
    rw [contents]
    cases found : db.table with
    | none => decide
    | some found' => simp_all [indexedColumns, standardColumns]
  -- The indexes are there, at version 2.
  obtain ⟨three, indexes⟩ := exists_createIndexes held indexable
  have behind : two.recordedVersion < 2 := by
    rw [adopted, recordedVersion_bootstrapped unrecorded']
    decide
  have indexed : three = two.withIndexes := by
    rcases ((createIndexes_does .granted).of_ok indexes).2 with ⟨free, -⟩ | ⟨-, same⟩
    · exact absurd behind free
    · exact same
  have good : checkVersion.IsIdle three := checkVersion_does.idle _ (by
    rw [indexed, recordedVersion_withIndexes behind]
    decide)
  refine ⟨three, ?_, fun v => ?_, ?_, by rw [indexed]; rfl⟩
  · rw [migrate, stages, Task.run_forM_of_ok versions, Task.run_forM_of_ok bootstrap,
      Task.run_forM_of_ok indexes, Task.run_forM_of_ok good]
    rfl
  · rw [indexed, adopted]
    refine (mem_versions_recordVersion _ 2 v).trans ?_
    rw [← or_assoc, ← recorded]
    exact or_congr_left (mem_versions_recordVersion one 1 v)
  · rw [indexed]
    exact (table_recordVersion two 2).trans held

theorem ensureVersions_of_ok (done : (ensureVersions access).run db = (.ok (), after)) :
    after.status = db.status ∧ after.table = db.table ∧ after.indexed = db.indexed ∧
      after.versions.getD [] = db.versions.getD [] := by
  rcases ((ensureVersions_does access).of_ok done).2 with ⟨-, rfl⟩ | ⟨-, rfl⟩ <;>
    exact ⟨rfl, rfl, rfl, rfl⟩

theorem run_migrateReporting_dry (access : WriteAccess) (db : Database) :
    ((migrateReporting true access).run db).2 = ((ensureVersions access).run db).2 := by
  unfold migrateReporting
  simp only [run_bind, run_schemaStatus, run_pure, if_true]
  rcases (ensureVersions access).run db with ⟨_ | _, after⟩ <;> rfl

theorem run_migrateReporting_real (access : WriteAccess) (db : Database) :
    (migrateReporting false access).run db =
      match (migrate access).run db with
      | (.ok (), after) =>
          (.ok ⟨false, db.status.currentVersion, db.status.targetVersion, db.status.pendingVersions,
            db.status.inferredFromLegacy, some 2, some true⟩, after)
      | (.error f, after) => (.error f, after) := by
  unfold migrateReporting
  simp only [run_bind, run_schemaStatus access db]
  rcases versions : (ensureVersions access).run db with ⟨f | _, mid⟩
  · have stopped : (migrate access).run db = (.error f, mid) := by
      rw [migrate, stages, Task.run_forM_cons, versions]
    rw [stopped]
  · -- The first report leaves the versions there, so the migration goes on as if it began with them.
    have idle : (ensureVersions access).IsIdle mid :=
      (ensureVersions_does access).isStage.settles versions
    have whole : (migrate access).run mid = (migrate access).run db := by
      rw [migrate, stages, Task.run_forM_of_ok idle, Task.run_forM_of_ok versions]
    simp only [Bool.false_eq_true, if_false, run_bind, whole, run_pure]
    rcases done : (migrate access).run db with ⟨f | _, after⟩
    · rfl
    · simp only [run_schemaStatus_current access (recordedVersion_of_migrate done),
        (ensureVersions_of_ok versions).1]
      rfl

/-- What a migration of a database comes to, and what is reported of it. -/
structure Migrates (access : WriteAccess) (db : Database) : Prop where
  keepsRows : KeepsRows db ((migrate access).run db).2
  settles : ∀ after, (migrate access).run db = (.ok (), after) → ∀ other,
    (schemaStatus other).run after = (.ok ⟨2, 2, [], false⟩, after) ∧
      (migrate other).run after = (.ok (), after)
  /-- One that stops after any of its stages is taken up where it stopped. -/
  resumes : ∀ count, (migrate access).run ((((stages access).take count).forM id).run db).2 =
    (migrate access).run db
  /-- This is how it goes from an empty database and from a table made before versions were recorded. -/
  arrives : db.recordedVersion = 0 →
    (∀ table, db.table = some table → ∀ c ∈ standardColumns, table.hasColumn c = true) →
    (∀ count, ((((stages .granted).take count).forM id).run db).1 = .ok ()) ∧
      ∃ after, (migrate .granted).run db = (.ok (), after) ∧
        (∀ v, v ∈ after.versions.getD [] ↔ v ∈ db.versions.getD [] ∨ v = 1 ∨ v = 2) ∧
        after.table = some db.contents ∧ after.indexed = true
  dryRun : ∀ result after, (migrateReporting true access).run db = (result, after) →
    after.table = db.table ∧ after.indexed = db.indexed ∧
      after.versions.getD [] = db.versions.getD []
  dryRunSucceeds : ∀ status after, (schemaStatus access).run db = (.ok status, after) →
    (migrateReporting true access).run db =
      (.ok ⟨true, status.currentVersion, status.targetVersion, status.pendingVersions,
        status.inferredFromLegacy, none, none⟩, after)
  realRun : ∀ report after, (migrateReporting false access).run db = (.ok report, after) →
    (migrate access).run db = (.ok (), after) ∧
      report.afterVersion = some report.targetVersion ∧ report.upToDate = some true
  realRunSucceeds : ∀ after, (migrate access).run db = (.ok (), after) →
    ∃ report, (migrateReporting false access).run db = (.ok report, after)

theorem migrate_keeps_settles_resumes (db : Database) (access : WriteAccess) : Migrates access db where
  keepsRows := keepsRows_migrate access db
  settles after done other := by
    have current := recordedVersion_of_migrate done
    exact ⟨run_schemaStatus_current other current, run_migrate_current other current⟩
  resumes count := Task.run_again (stages_steady access) (stages_ordered access) count db
  arrives unrecorded columns := by
    obtain ⟨after, done, arrived⟩ := run_migrate_unrecorded unrecorded columns
    exact ⟨Task.run_take_of_run done, after, done, arrived⟩
  dryRun result after run := by
    have same : ((ensureVersions access).run db).2 = after := by
      rw [← run_migrateReporting_dry, run]
    subst same
    rcases versions : (ensureVersions access).run db with ⟨f | _, mid⟩
    · obtain rfl := (ensureVersions_does access).isStage.restores versions
      exact ⟨rfl, rfl, rfl⟩
    · exact (ensureVersions_of_ok versions).2
  dryRunSucceeds status after run := by
    unfold migrateReporting
    simp only [run_bind, run, run_pure, if_true]
  realRun report after run := by
    rw [run_migrateReporting_real] at run
    rcases done : (migrate access).run db with ⟨f | _, mid⟩
    · rw [done] at run
      cases run
    · rw [done] at run
      cases run
      exact ⟨rfl, rfl, rfl⟩
  realRunSucceeds after done := by
    rw [run_migrateReporting_real, done]
    exact ⟨_, rfl⟩

theorem migrate_keeps_settles_resumes_legacy :
    let table := RetirementTable.foreign ("note" :: standardColumns) 1 fun _ => [0x41]
    let legacy : Database := { table := some table }
    legacy.recordedVersion = 0 ∧
      ∃ after, (migrate .granted).run ((((stages .granted).take 2).forM id).run legacy).2 =
          (.ok (), after) ∧ after.table = some table ∧ 2 ∈ after.versions.getD [] := by
  intro table legacy
  have unrecorded : legacy.recordedVersion = 0 := by decide
  have migrates := migrate_keeps_settles_resumes legacy .granted
  obtain ⟨-, after, done, versions, -⟩ := migrates.arrives unrecorded (by
    intro found held c member
    cases held
    simp [table, hasColumn, columns, member])
  refine ⟨unrecorded, after, (migrates.resumes 2).trans done, ?_, (versions 2).mpr (.inr (.inr rfl))⟩
  have kept := migrates.keepsRows
  rw [done] at kept
  exact kept.table table rfl

end RetirementLedger.Database

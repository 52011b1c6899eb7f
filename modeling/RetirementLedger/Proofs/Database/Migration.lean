import RetirementLedger.Database.Schema
import RetirementLedger.Proofs.Database.Insertion

namespace RetirementLedger.Database

theorem versions_ne_none {db : Database} (recorded : db.recordedVersion ≠ 0) :
    db.versions ≠ none := by
  intro versions
  exact recorded (by simp [recordedVersion, versions])

theorem run_migrate_current {db : Database} (access : WriteAccess)
    (current : db.recordedVersion = latestVersion) :
    (migrate access).run db = (.ok (), db) := by
  have recorded : db.recordedVersion = 2 := current
  have known : db.versions ≠ none := versions_ne_none (by omega)
  have noVersions : (ensureVersions access).run db = (.ok (), db) := by
    simp [ensureVersions, known]
  have noTable : (bootstrap access).run db = (.ok (), db) := by
    simp [bootstrap, recorded]
  have noIndexes : (createIndexes access).run db = (.ok (), db) := by
    simp [createIndexes, recorded]
  have good : checkVersion.run db = (.ok (), db) := by
    simp [checkVersion, current]
  simp [migrate, stages, List.forM_cons, List.forM_nil, noVersions, noTable, noIndexes, good]

theorem recordedVersion_fresh : fresh.recordedVersion = latestVersion := by decide

theorem table_fresh : fresh.table = some (.standard ∅) := rfl

end RetirementLedger.Database

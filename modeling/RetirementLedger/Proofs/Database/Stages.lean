import RetirementLedger.Proofs.Database.Insertion

/-!
The stages of a migration. A stage that fails leaves the database as it was, and one that has succeeded
has nothing left to do, then or after any later stage. So a migration that stops somewhere may simply be
run again.
-/
namespace RetirementLedger.Database

namespace Task

def IsIdle (task : Task Unit) (db : Database) : Prop := task.run db = (.ok (), db)

/-- The task has something to do where it is needed. There it fails in place or has the effect, after
which it is not needed any more. -/
structure Does (task : Task Unit) (needed : Database → Prop) (effect : Database → Database) :
    Prop where
  idle : ∀ db, ¬ needed db → task.IsIdle db
  works : ∀ db, needed db →
    (∃ f, task.run db = (.error f, db)) ∨ task.run db = (.ok (), effect db) ∧ ¬ needed (effect db)

structure IsStage (task : Task Unit) : Prop where
  restores : ∀ {db after : Database} {f : AdminFailure}, task.run db = (.error f, after) → after = db
  settles : ∀ {db after : Database}, task.run db = (.ok (), after) → task.IsIdle after

def KeepsIdle (task early : Task Unit) : Prop :=
  ∀ {db after : Database}, early.IsIdle db → task.run db = (.ok (), after) → early.IsIdle after

section Does

variable {task : Task Unit} {needed : Database → Prop} {effect : Database → Database}
variable {db after : Database}

theorem Does.cases (does : task.Does needed effect) (db : Database) :
    (∃ f, task.run db = (.error f, db)) ∨ ¬ needed db ∧ task.IsIdle db ∨
      needed db ∧ task.run db = (.ok (), effect db) ∧ ¬ needed (effect db) := by
  by_cases need : needed db
  · rcases does.works db need with failed | worked
    · exact .inl failed
    · exact .inr (.inr ⟨need, worked⟩)
  · exact .inr (.inl ⟨need, does.idle db need⟩)

theorem Does.of_ok (does : task.Does needed effect) (done : task.run db = (.ok (), after)) :
    ¬ needed after ∧ (¬ needed db ∧ after = db ∨ needed db ∧ after = effect db) := by
  rcases does.cases db with ⟨f, failed⟩ | ⟨free, idle⟩ | ⟨need, worked, free⟩
  · cases failed.symm.trans done
  · cases idle.symm.trans done
    exact ⟨free, .inl ⟨free, rfl⟩⟩
  · cases worked.symm.trans done
    exact ⟨free, .inr ⟨need, rfl⟩⟩

theorem Does.isStage (does : task.Does needed effect) : task.IsStage where
  restores := by
    intro db after f failed
    rcases does.cases db with ⟨g, run⟩ | ⟨-, idle⟩ | ⟨-, worked, -⟩
    · cases run.symm.trans failed
      rfl
    · cases idle.symm.trans failed
    · cases worked.symm.trans failed
  settles := fun done => does.idle _ (does.of_ok done).1

theorem Does.preserves (does : task.Does needed effect) {P : Database → Prop}
    (kept : needed db → P (effect db)) (holds : P db) : P (task.run db).2 := by
  rcases does.cases db with ⟨f, run⟩ | ⟨-, run⟩ | ⟨need, run, -⟩
  · rwa [run]
  · rwa [run]
  · rw [run]
    exact kept need

theorem Does.keepsIdle (does : task.Does needed effect) {early : Task Unit}
    {needed' : Database → Prop} {effect' : Database → Database} (before : early.Does needed' effect')
    (spared : ∀ db, ¬ needed' db → ¬ needed' (effect db)) : task.KeepsIdle early := by
  intro db after idle done
  have free := (before.of_ok idle).1
  rcases (does.of_ok done).2 with ⟨-, rfl⟩ | ⟨-, rfl⟩
  · exact idle
  · exact before.idle _ (spared db free)

end Does

variable {stages : List (Task Unit)}

theorem run_forM_cons (stage : Task Unit) (rest : List (Task Unit)) (db : Database) :
    ((stage :: rest).forM id).run db =
      match stage.run db with
      | (.ok (), after) => (rest.forM id).run after
      | (.error f, after) => (.error f, after) := by
  change (forM (stage :: rest) id : Task Unit).run db = _
  rw [List.forM_cons, run_bind, id]
  rcases stage.run db with ⟨_ | _, after⟩ <;> rfl

theorem run_forM_of_ok {stage : Task Unit} {db after : Database} (done : stage.run db = (.ok (), after))
    (rest : List (Task Unit)) : ((stage :: rest).forM id).run db = (rest.forM id).run after := by
  rw [run_forM_cons, done]

theorem exists_of_run_forM_cons {stage : Task Unit} {rest : List (Task Unit)} {db after : Database}
    (done : ((stage :: rest).forM id).run db = (.ok (), after)) :
    ∃ mid, stage.run db = (.ok (), mid) ∧ (rest.forM id).run mid = (.ok (), after) := by
  rw [run_forM_cons] at done
  rcases run : stage.run db with ⟨f | _, mid⟩
  · rw [run] at done
    cases done
  · rw [run] at done
    exact ⟨mid, rfl, done⟩

theorem run_forM_preserves {P : Database → Prop}
    (each : ∀ stage ∈ stages, ∀ db, P db → P (stage.run db).2) {db : Database} (holds : P db) :
    P ((stages.forM id).run db).2 := by
  induction stages generalizing db with
  | nil => exact holds
  | cons stage rest ih =>
      have next := each stage (.head _) db holds
      rw [run_forM_cons]
      rcases first : stage.run db with ⟨_ | _, after⟩
      · rwa [first] at next
      · rw [first] at next
        exact ih (fun stage member => each stage (.tail _ member)) next

theorem IsIdle.run_forM {early : Task Unit} (steady : ∀ stage ∈ stages, stage.IsStage)
    (spared : ∀ stage ∈ stages, stage.KeepsIdle early) {db : Database} (idle : early.IsIdle db) :
    early.IsIdle ((stages.forM id).run db).2 := by
  refine run_forM_preserves (fun late member before idle => ?_) idle
  rcases run : late.run before with ⟨f | _, next⟩
  · rwa [(steady late member).restores run]
  · exact spared late member idle run

variable (steady : ∀ stage ∈ stages, stage.IsStage)
  (ordered : stages.Pairwise fun early late => late.KeepsIdle early)
include steady ordered

/-- Stages that have been run, the first few or all of them, are in nobody's way when all are run. -/
theorem run_again (count : Nat) (db : Database) :
    (stages.forM id).run (((stages.take count).forM id).run db).2 = (stages.forM id).run db := by
  induction stages generalizing count db with
  | nil =>
      rw [List.take_nil]
      rfl
  | cons stage rest ih =>
      cases count with
      | zero => rfl
      | succ count =>
          obtain ⟨spared, others⟩ := List.pairwise_cons.mp ordered
          obtain ⟨first, later⟩ := List.forall_mem_cons.mp steady
          rw [List.take_succ_cons, run_forM_cons stage (rest.take count)]
          rcases run : stage.run db with ⟨f | _, after⟩
          · rw [first.restores run]
          · -- The first stage stays idle while the others go on, so all of them start with the others.
            have still : stage.IsIdle (((rest.take count).forM id).run after).2 :=
              (first.settles run).run_forM (fun late member => later late (List.mem_of_mem_take member))
                fun late member => spared late (List.mem_of_mem_take member)
            rw [run_forM_cons, still, run_forM_cons, run]
            exact ih later others count after

theorem isIdle_of_run {db after : Database} (done : (stages.forM id).run db = (.ok (), after)) :
    ∀ stage ∈ stages, stage.IsIdle after := by
  induction stages generalizing db with
  | nil => exact List.forall_mem_nil _
  | cons stage rest ih =>
      obtain ⟨spared, others⟩ := List.pairwise_cons.mp ordered
      obtain ⟨first, later⟩ := List.forall_mem_cons.mp steady
      obtain ⟨mid, run, more⟩ := exists_of_run_forM_cons done
      have still := (first.settles run).run_forM later spared
      rw [more] at still
      exact List.forall_mem_cons.mpr ⟨still, ih later others more⟩

omit steady ordered

theorem run_take_of_run {db after : Database} (done : (stages.forM id).run db = (.ok (), after))
    (count : Nat) : (((stages.take count).forM id).run db).1 = .ok () := by
  induction stages generalizing count db with
  | nil =>
      rw [List.take_nil]
      rfl
  | cons stage rest ih =>
      cases count with
      | zero => rfl
      | succ count =>
          obtain ⟨mid, run, more⟩ := exists_of_run_forM_cons done
          rw [List.take_succ_cons, run_forM_of_ok run]
          exact ih more count

end Task

variable {db : Database}

def contents (db : Database) : RetirementTable := db.table.getD (.standard ∅)

theorem recordedVersion_recordVersion {version : Int} (newer : db.recordedVersion < version) :
    (db.recordVersion version).recordedVersion = version := by
  have below : ∀ v ∈ db.versions.getD [], v < version := by
    intro v member
    obtain ⟨top, greatest⟩ := Option.isSome_iff_exists.mp (List.isSome_max?_of_mem member)
    rw [recordedVersion, greatest, Option.getD_some] at newer
    have atMost := (List.max?_le_iff greatest).mp (Int.le_refl top) v member
    omega
  have fresh : version ∉ db.versions.getD [] := fun member =>
    Int.lt_irrefl version (below version member)
  have most : (db.versions.getD [] ++ [version]).max? = some version := by
    rw [List.max?_eq_some_iff]
    refine ⟨by simp, fun v member => ?_⟩
    rcases List.mem_append.mp member with earlier | same
    · exact Int.le_of_lt (below v earlier)
    · exact Int.le_of_eq (List.mem_singleton.mp same)
  simp [recordVersion, fresh, recordedVersion, most]

theorem versions_recordVersion (db : Database) (version : Int) :
    (db.recordVersion version).versions ≠ none := by
  unfold recordVersion
  dsimp only
  split <;> simp

theorem mem_versions_recordVersion (db : Database) (version v : Int) :
    v ∈ (db.recordVersion version).versions.getD [] ↔ v ∈ db.versions.getD [] ∨ v = version := by
  unfold recordVersion
  dsimp only
  split
  · next known =>
      have member : version ∈ db.versions.getD [] := by simpa using known
      constructor
      · exact .inl
      · rintro (earlier | rfl)
        · exact earlier
        · exact member
  · simp

@[simp] theorem table_recordVersion (db : Database) (version : Int) :
    (db.recordVersion version).table = db.table := by
  unfold recordVersion
  dsimp only
  split <;> rfl

variable (access : WriteAccess)

def withVersions (db : Database) : Database := { db with versions := some (db.versions.getD []) }

def bootstrapped (db : Database) : Database := { db.recordVersion 1 with table := some db.contents }

def withIndexes (db : Database) : Database := { db.recordVersion 2 with indexed := true }

theorem recordedVersion_bootstrapped (unrecorded : db.recordedVersion = 0) :
    db.bootstrapped.recordedVersion = 1 :=
  recordedVersion_recordVersion (by omega)

theorem recordedVersion_withIndexes (behind : db.recordedVersion < 2) :
    db.withIndexes.recordedVersion = 2 :=
  recordedVersion_recordVersion behind

theorem ensureVersions_does :
    (ensureVersions access).Does (fun db => db.versions = none) withVersions where
  idle db known := by simp [Task.IsIdle, ensureVersions, known]
  works db unknown := by
    cases granted : access.isGranted with
    | true =>
        refine .inr ⟨?_, by simp [withVersions]⟩
        simp only [ensureVersions, run_bind, run_get, unknown, granted, withVersions]
        rfl
    | false =>
        refine .inl ⟨.refused noVersionsMessage, ?_⟩
        simp only [ensureVersions, run_bind, run_get, unknown, granted]
        rfl

theorem run_adoptTable {table : RetirementTable} (found : db.table = some table) :
    (∃ f, (adoptTable access table).run db = (.error f, db)) ∨
      (adoptTable access table).run db = (.ok (), db.bootstrapped) := by
  have same : db.bootstrapped = db.recordVersion 1 := by
    rw [bootstrapped, contents, found, Option.getD_some, ← found, ← table_recordVersion db 1]
  rw [same]
  cases stamped : table.hasColumn "retired_at_ms" with
  | false =>
      refine .inl ⟨.refused
        "database schema is invalid: agreement_retirements has no retired_at_ms column", ?_⟩
      simp only [adoptTable, stamped]
      rfl
  | true =>
      cases granted : access.isGranted with
      | false =>
          refine .inl ⟨.refused "failed to record migration version 1", ?_⟩
          simp only [adoptTable, stamped, granted]
          rfl
      | true =>
          refine .inr ?_
          simp only [adoptTable, stamped, granted]
          rfl

theorem run_createTable (absent : db.table = none) :
    (∃ f, (createTable access).run db = (.error f, db)) ∨
      (createTable access).run db = (.ok (), db.bootstrapped) := by
  cases granted : access.isGranted with
  | false =>
      refine .inl ⟨.refused "failed to apply migration v1", ?_⟩
      simp only [createTable, granted]
      rfl
  | true =>
      refine .inr ?_
      simp only [createTable, granted, bootstrapped, contents, absent]
      rfl

theorem bootstrap_does : (bootstrap access).Does (fun db => db.recordedVersion = 0) bootstrapped where
  idle db recorded := by
    simp only [Task.IsIdle, bootstrap, run_bind, run_get, if_neg recorded]
    rfl
  works db unrecorded := by
    have free : ¬ db.bootstrapped.recordedVersion = 0 := by
      rw [recordedVersion_bootstrapped unrecorded]
      decide
    cases table : db.table with
    | none =>
        have run : (bootstrap access).run db = (createTable access).run db := by
          simp only [bootstrap, run_bind, run_get, unrecorded, if_true, table]
        rw [run]
        exact (run_createTable access table).imp_right fun worked => ⟨worked, free⟩
    | some found =>
        have run : (bootstrap access).run db = (adoptTable access found).run db := by
          simp only [bootstrap, run_bind, run_get, unrecorded, if_true, table]
        rw [run]
        exact (run_adoptTable access table).imp_right fun worked => ⟨worked, free⟩

theorem createIndexes_does :
    (createIndexes access).Does (fun db => db.recordedVersion < 2) withIndexes where
  idle db recorded := by
    simp only [Task.IsIdle, createIndexes, run_bind, run_get, if_neg recorded]
    rfl
  works db behind := by
    have free : ¬ db.withIndexes.recordedVersion < 2 := by
      rw [recordedVersion_withIndexes behind]
      decide
    generalize missing : (!(db.table.any fun t => RetirementTable.indexedColumns.all t.hasColumn) ||
      !access.isGranted && !db.indexed) = refused
    cases refused with
    | true =>
        refine .inl ⟨.refused "failed to create retirement indexes", ?_⟩
        simp only [createIndexes, run_bind, run_get, behind, missing]
        rfl
    | false =>
        cases granted : access.isGranted with
        | false =>
            refine .inl ⟨.refused "failed to record migration version 2", ?_⟩
            rw [granted] at missing
            simp only [createIndexes, run_bind, run_get, behind, granted, missing]
            rfl
        | true =>
            refine .inr ⟨?_, free⟩
            rw [granted] at missing
            simp only [createIndexes, run_bind, run_get, behind, granted, missing]
            rfl

/-! Who may write fails only for want of columns. -/

theorem exists_ensureVersions (db : Database) :
    ∃ after, (ensureVersions .granted).run db = (.ok (), after) := by
  cases versions : db.versions with
  | none => exact ⟨_, by simp only [ensureVersions, run_bind, run_get, versions]; rfl⟩
  | some known => exact ⟨db, (ensureVersions_does .granted).idle db (by simp [versions])⟩

theorem exists_bootstrap
    (stamped : ∀ table, db.table = some table → table.hasColumn "retired_at_ms" = true) :
    ∃ after, (bootstrap .granted).run db = (.ok (), after) := by
  by_cases unrecorded : db.recordedVersion = 0
  · cases table : db.table with
    | none =>
        refine ⟨{ db.recordVersion 1 with table := some (.standard ∅) }, ?_⟩
        simp only [bootstrap, run_bind, run_get, unrecorded, if_true, table]
        rfl
    | some found =>
        refine ⟨db.recordVersion 1, ?_⟩
        simp only [bootstrap, run_bind, run_get, unrecorded, if_true, table, adoptTable,
          stamped found table]
        rfl
  · exact ⟨db, (bootstrap_does .granted).idle db unrecorded⟩

theorem exists_createIndexes {table : RetirementTable} (found : db.table = some table)
    (columns : RetirementTable.indexedColumns.all table.hasColumn = true) :
    ∃ after, (createIndexes .granted).run db = (.ok (), after) := by
  by_cases behind : db.recordedVersion < 2
  · refine ⟨db.withIndexes, ?_⟩
    simp only [createIndexes, run_bind, run_get, behind, if_true, found, Option.any_some, columns]
    rfl
  · exact ⟨db, (createIndexes_does .granted).idle db behind⟩

theorem checkVersion_does : checkVersion.Does (fun db => db.recordedVersion ≠ latestVersion) id where
  idle db current := by simp [Task.IsIdle, checkVersion, Classical.not_not.mp current]
  works db other := by
    refine .inl ⟨.refused ("unsupported schema version " ++ toString db.recordedVersion ++
      "; expected " ++ toString latestVersion), ?_⟩
    simp only [checkVersion, run_bind, run_get, if_pos other]
    rfl

theorem stages_steady : ∀ stage ∈ stages access, stage.IsStage := by
  simp only [stages, List.forall_mem_cons]
  exact ⟨(ensureVersions_does access).isStage, (bootstrap_does access).isStage,
    (createIndexes_does access).isStage, checkVersion_does.isStage, List.forall_mem_nil _⟩

theorem stages_ordered : (stages access).Pairwise fun early late => late.KeepsIdle early := by
  have versions := ensureVersions_does access
  have table := bootstrap_does access
  have indexes := createIndexes_does access
  have bootstrapKeeps : (bootstrap access).KeepsIdle (ensureVersions access) :=
    table.keepsIdle versions fun db _ => versions_recordVersion db 1
  have indexesKeep : (createIndexes access).KeepsIdle (ensureVersions access) :=
    indexes.keepsIdle versions fun db _ => versions_recordVersion db 2
  have indexesAfter : (createIndexes access).KeepsIdle (bootstrap access) := by
    intro db after idle done
    have recorded := (table.of_ok idle).1
    rcases (indexes.of_ok done).2 with ⟨-, rfl⟩ | ⟨behind, rfl⟩
    · exact idle
    · exact table.idle _ (by rw [recordedVersion_withIndexes behind]; decide)
  have check (early : Task Unit) : checkVersion.KeepsIdle early := by
    intro db after idle done
    rcases (checkVersion_does.of_ok done).2 with ⟨-, rfl⟩ | ⟨-, rfl⟩ <;> exact idle
  simp only [stages, List.pairwise_cons, List.forall_mem_cons]
  exact ⟨⟨bootstrapKeeps, indexesKeep, check _, List.forall_mem_nil _⟩,
    ⟨indexesAfter, check _, List.forall_mem_nil _⟩, ⟨check _, List.forall_mem_nil _⟩,
    List.forall_mem_nil _, .nil⟩

end RetirementLedger.Database

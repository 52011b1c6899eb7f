import RetirementLedger.Proofs.Database.Batch
import RetirementLedger.Proofs.Migration
import RetirementLedger.Proofs.Snapshot.Reading

namespace RetirementLedger

namespace Snapshot

def texts? (lines : List (List UInt8)) : Option (List String) :=
  (lines.mapM Text.Utf8.toText?).map fun texts => (texts.map Text.trim).filter (!·.isEmpty)

def decode? (text : String) : Option Retirement := (Json.parse? text).bind Retirement.ofJson?

theorem length_of_mapM {texts : List String} {records : List Retirement}
    (decoded : texts.mapM decode? = some records) : records.length = texts.length := by
  induction texts generalizing records with
  | nil =>
      cases decoded
      rfl
  | cons text texts ih =>
      rw [List.mapM_cons] at decoded
      obtain ⟨r, -, rest⟩ := Option.bind_eq_some_iff.mp decoded
      obtain ⟨more, others, same⟩ := Option.bind_eq_some_iff.mp rest
      cases same
      exact congrArg (· + 1) (ih others)

theorem texts?_cons {line : List UInt8} {lines : List (List UInt8)} {text : String}
    {texts : List String} (first : Text.Utf8.toText? line = some text)
    (others : texts? lines = some texts) :
    texts? (line :: lines) = some ([Text.trim text].filter (!·.isEmpty) ++ texts) := by
  obtain ⟨raw, read, rfl⟩ := Option.map_eq_some_iff.mp others
  rw [texts?, List.mapM_cons, first, read]
  simp only [Option.bind_eq_bind, Option.bind_some, Option.pure_def, Option.map_some, List.map_cons,
    ← List.filter_append, List.singleton_append]

theorem readLine_ok {path : String} {number : Nat} {line : List UInt8} {found : Option Retirement}
    (read : readLine path number line = .ok found) :
    ∃ text, Text.Utf8.toText? line = some text ∧
      ([Text.trim text].filter (!·.isEmpty)).mapM decode? = some found.toList := by
  unfold readLine at read
  cases decoded : Text.Utf8.toText? line with
  | none =>
      rw [decoded] at read
      cases read
  | some text =>
      refine ⟨text, rfl, ?_⟩
      rw [decoded] at read
      dsimp only at read
      cases blank : (Text.trim text).isEmpty with
      | true =>
          rw [blank] at read
          cases read
          simp [blank]
      | false =>
          rw [blank] at read
          simp only [Bool.false_eq_true, if_false] at read
          cases value : (Json.parse? (Text.trim text)).bind Retirement.ofJson? with
          | none =>
              rw [value] at read
              cases read
          | some r =>
              rw [value] at read
              cases read
              simp [blank, decode?, value]

theorem readLinesFrom_ok {path : String} {number : Nat} {lines : List (List UInt8)}
    {records : List Retirement} (read : readLinesFrom path number lines = .ok records) :
    ∃ texts, texts? lines = some texts ∧ texts.mapM decode? = some records := by
  induction lines generalizing number records with
  | nil =>
      cases read
      exact ⟨[], rfl, rfl⟩
  | cons line lines ih =>
      unfold readLinesFrom at read
      obtain ⟨found, first, rest⟩ := bind_eq_ok.mp read
      obtain ⟨more, others, same⟩ := bind_eq_ok.mp rest
      cases same
      obtain ⟨text, decoded, one⟩ := readLine_ok first
      obtain ⟨texts, filled, all⟩ := ih others
      refine ⟨_, texts?_cons decoded filled, ?_⟩
      rw [List.mapM_append, one, all]
      rfl

theorem readRecordsFile_ok {path : String} {m : Manifest} {dir : SnapshotDir} {octets : List UInt8}
    (read : readRecordsFile path m dir = .ok octets) :
    dir.records = some octets ∧
      ∃ file, m.files.find? (·.path == recordsFile) = some file ∧ Sha256.hex octets = file.sha256 := by
  unfold readRecordsFile at read
  split at read
  · cases read
  · split at read
    · cases read
    · next file found =>
        split at read
        · cases read
        · next here =>
            dsimp only at read
            split at read
            · next digest =>
                cases read
                exact ⟨here, file, found, digest⟩
            · cases read

theorem read_ok {path : String} {dir : SnapshotDir} {records : List Retirement}
    (done : read path dir = .ok records) :
    ∃ octets texts, dir.records = some octets ∧ texts? (splitLines octets) = some texts ∧
      texts.mapM decode? = some records := by
  unfold read at done
  obtain ⟨m, -, rest⟩ := bind_eq_ok.mp done
  obtain ⟨octets, file, lines⟩ := bind_eq_ok.mp rest
  obtain ⟨texts, filled, decoded⟩ := readLinesFrom_ok lines
  exact ⟨octets, texts, (readRecordsFile_ok file).1, filled, decoded⟩

theorem summarize_length (receipts : List Receipt) :
    (summarize receipts).importedRecords + (summarize receipts).skippedRecords =
      receipts.length := by
  rw [List.length_eq_countP_add_countP fun receipt => receipt.wasNew]
  simp [summarize]

theorem summarize_known {receipts : List Receipt}
    (known : ∀ receipt ∈ receipts, receipt.wasNew = false) :
    summarize receipts = ⟨0, receipts.length⟩ := by
  have imported : receipts.countP (·.wasNew) = 0 :=
    List.countP_eq_zero.mpr fun receipt member => by simp [known receipt member]
  have skipped : receipts.countP (!·.wasNew) = receipts.length :=
    List.countP_eq_length.mpr fun receipt member => by simp [known receipt member]
  rw [summarize, imported, skipped]

end Snapshot

namespace Database

variable {db after : Database} {access : WriteAccess} {path : String} {dir : SnapshotDir}

theorem run_importSnapshot (access : WriteAccess) (path : String) (dir : SnapshotDir)
    (db : Database) :
    (importSnapshot access path dir).run db =
      match (migrate access).run db with
      | (.error f, after) => (.error f, after)
      | (.ok (), current) =>
        match Snapshot.read path dir with
        | .error f => (.error f, current)
        | .ok records =>
          match (insertAll access records).run current with
          | (.error f, after) => (.error (.store f), after)
          | (.ok receipts, after) => (.ok (Snapshot.summarize receipts), after) := by
  unfold importSnapshot importRecords
  simp only [run_bind, run_lift, run_pure, run_ofWork]
  rcases (migrate access).run db with ⟨f | _, current⟩
  · rfl
  · dsimp only
    cases Snapshot.read path dir with
    | error f => rfl
    | ok records =>
        dsimp only
        rcases (insertAll access records).run current with ⟨f | receipts, after⟩ <;> rfl

theorem keepsRows_of_import_error {f : AdminFailure}
    (failed : (importSnapshot access path dir).run db = (.error f, after)) : KeepsRows db after := by
  have kept := keepsRows_migrate access db
  rw [run_importSnapshot] at failed
  rcases migrated : (migrate access).run db with ⟨f | _, current⟩
  · rw [migrated] at failed kept
    cases failed
    exact kept
  · rw [migrated] at failed kept
    dsimp only at failed kept
    cases read : Snapshot.read path dir with
    | error f =>
        rw [read] at failed
        cases failed
        exact kept
    | ok records =>
        rw [read] at failed
        dsimp only at failed
        rcases insertAll_cases access records current with ⟨g, run⟩ | ⟨receipts, next, run, -⟩
        · rw [run] at failed
          cases failed
          exact kept
        · rw [run] at failed
          cases failed

theorem import_ok {summary : ImportSummary}
    (done : (importSnapshot access path dir).run db = (.ok summary, after)) :
    ∃ current records receipts, (migrate access).run db = (.ok (), current) ∧
      Snapshot.read path dir = .ok records ∧
      (insertAll access records).run current = (.ok receipts, after) ∧
      summary = Snapshot.summarize receipts := by
  obtain ⟨receipts, last, imported, same⟩ := run_bind_eq_ok.mp done
  obtain ⟨⟨⟩, current, migrated, rest⟩ := run_bind_eq_ok.mp imported
  obtain ⟨records, next, lifted, worked⟩ := run_bind_eq_ok.mp rest
  cases same
  obtain ⟨read, rfl⟩ := Prod.mk.inj ((run_lift _ _).symm.trans lifted)
  rw [run_ofWork] at worked
  rcases stored : (insertAll access records).run current with ⟨f | receipts', last⟩
  · rw [stored] at worked
    cases worked
  · rw [stored] at worked
    cases worked
    exact ⟨current, records, receipts, migrated, read, stored, rfl⟩

theorem KeepsRows.added {current : Database} {records : List Retirement} (kept : KeepsRows db current)
    (added : Added current records after) : Added db records after := by
  have before (id : String) : current.row? id = db.row? id := row?_congr kept.contents id
  refine ⟨fun id => ?_, fun columns count row held => ?_, fun id held => ?_, fun id r free found => ?_⟩
  · rw [added.rows, before]
  · rw [← kept.contents]
    exact added.foreign columns count row (kept.contents.trans held)
  · rw [added.kept id (by rwa [before])]
    cases table : db.table with
    | none => simp [row?, Database.contents, table, Catalog.find?, EmptyCollection.emptyCollection,
        Catalog.empty] at held
    | some found => exact find?_congr ((kept.table found table).trans table.symm) id
  · exact added.made id r ((before id).trans free) found

/-- Importing is all or nothing, keeps what is there, takes the first retirement of each other agreement and
has nothing to do the second time, whatever the database and the directory hold. -/
theorem importSnapshot_all_or_nothing (db : Database) (access : WriteAccess) (path : String)
    (dir : SnapshotDir) :
    (∀ f after, (importSnapshot access path dir).run db = (.error f, after) → KeepsRows db after) ∧
    ∀ summary after, (importSnapshot access path dir).run db = (.ok summary, after) →
      ∃ octets texts records, dir.records = some octets ∧
        Snapshot.texts? (Snapshot.splitLines octets) = some texts ∧
        texts.mapM Snapshot.decode? = some records ∧ Added db records after ∧
        summary.importedRecords + summary.skippedRecords = texts.length ∧
        (importSnapshot access path dir).run after = (.ok ⟨0, texts.length⟩, after) := by
  refine ⟨fun f after failed => keepsRows_of_import_error failed, fun summary after done => ?_⟩
  obtain ⟨current, records, receipts, migrated, read, stored, rfl⟩ := import_ok done
  obtain ⟨octets, texts, file, filled, decoded⟩ := Snapshot.read_ok read
  obtain ⟨all, anyTime⟩ := run_mapM_of_insertAll stored
  obtain ⟨version, count, again, length, known, repeated⟩ := run_mapM_insertIn_again all
  have lines := Snapshot.length_of_mapM decoded
  have kept := keepsRows_migrate access db
  rw [migrated] at kept
  refine ⟨octets, texts, records, file, filled, decoded, kept.added (added_of_run_mapM all), ?_, ?_⟩
  · rw [Snapshot.summarize_length, count, lines]
  · have idle := run_migrate_current access (version.trans (recordedVersion_of_migrate migrated))
    rw [run_importSnapshot, idle, read]
    dsimp only
    rw [anyTime repeated]
    dsimp only
    rw [Snapshot.summarize_known known, length, lines]

theorem importSnapshot_all_or_nothing_duplicates :
    let first : Retirement := .create "a-1" "MANUAL" "alice" .epoch
    let second : Retirement := .create "a-1" "EXPIRED" "bob" .epoch
    ∃ dir after, Snapshot.read "backup" dir = .ok [first, second] ∧
      (importSnapshot .granted "backup" dir).run fresh = (.ok ⟨1, 1⟩, after) ∧
      after.find? "a-1" = .ok (some first) ∧
      (importSnapshot .granted "backup" dir).run after = (.ok ⟨0, 2⟩, after) := by
  intro first second
  obtain ⟨content, written⟩ : ∃ content, Snapshot.lines [first, second] = (content, false) :=
    ⟨(Snapshot.lines [first, second]).1,
      Prod.ext rfl (show (Snapshot.lines [first, second]).2 = false by decide)⟩
  have exported : Snapshot.exportTo "backup" [first, second] "now" {} {} =
      (.ok (Snapshot.manifestOf content 2 "now"),
        ⟨some content, some (Snapshot.manifestBytes (Snapshot.manifestOf content 2 "now"))⟩) := by
    simp [Snapshot.exportTo, written, Snapshot.write]
  obtain ⟨dir, read⟩ : ∃ dir, Snapshot.read "backup" dir = .ok [first, second] :=
    ⟨_, Snapshot.read_of_exportTo exported (by decide) "backup"⟩
  have kept : (Row.ofRetirement first).toRetirement first.agreementId = .ok first := by decide
  have one : (insertIn first).run fresh = (.ok ⟨first, true⟩,
      fresh.withRows (Catalog.insert ∅ first.agreementId (.ofRetirement first))) := by
    have valid : first.validate = .ok () := by decide
    have checked : checkRow first.agreementId (.ofRetirement first) = .ok () := by decide
    have free : (∅ : Catalog Row).find? first.agreementId = none := rfl
    rw [run_insertIn table_fresh, valid, checked, free]
    dsimp only
    rw [kept]
    rfl
  obtain ⟨-, settled⟩ := settled_of_run_insertIn table_fresh one
  generalize next : fresh.withRows (Catalog.insert ∅ first.agreementId (.ofRetirement first)) = after
    at one
  have table : after.table = some (.standard (Catalog.fill ∅ [Row.entry first])) := by
    rw [← next]
    rfl
  have found : after.find? first.agreementId = .ok (some first) := by
    rw [← next, find?_withRows_insert table_fresh, if_pos rfl, kept]
    rfl
  obtain ⟨receipt, known, two⟩ := run_insertIn_settled (r := second) table
    ⟨by decide, by decide, settled.held⟩
  have stored : (insertAll .granted [first, second]).run fresh =
      (.ok [⟨first, true⟩, receipt], after) := by
    change (transact ([first, second].mapM insertIn)).run fresh = _
    have both : ([first, second].mapM insertIn).run fresh = (.ok [⟨first, true⟩, receipt], after) :=
      run_mapM_insertIn_cons_eq_ok.mpr ⟨_, after, [receipt], one,
        run_mapM_insertIn_cons_eq_ok.mpr ⟨_, after, [], two, rfl, rfl⟩, rfl⟩
    rw [run_transact, both]
  have imported : (importSnapshot .granted "backup" dir).run fresh = (.ok ⟨1, 1⟩, after) := by
    rw [run_importSnapshot, run_migrate_current .granted recordedVersion_fresh, read]
    dsimp only
    rw [stored]
    simp [Snapshot.summarize, known]
  obtain ⟨octets, texts, records, -, -, -, -, count, again⟩ :=
    (importSnapshot_all_or_nothing fresh .granted "backup" dir).2 _ _ imported
  rw [← count] at again
  exact ⟨dir, after, read, imported, found, again⟩

end Database

end RetirementLedger

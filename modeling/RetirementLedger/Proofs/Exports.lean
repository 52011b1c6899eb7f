import Mathlib.Data.List.Induction
import RetirementLedger.Proofs.Importing
import RetirementLedger.Proofs.Json.Cut

/-!
Exports into one directory, of which any may fail. The file of retirements is written before the manifest,
so a directory may hold files of different exports, or a part of one. Of all these, nothing is imported
except what the last export that succeeded has written.
-/
namespace RetirementLedger

/-- Where an export stops if it is not for want of room: before it has opened the file of retirements, or
before it has opened the manifest. -/
inductive Halt where
  | beforeRecords (failure : AdminFailure)
  | beforeManifest (failure : AdminFailure)

structure Export where
  source : Database
  path : String
  now : String
  room : WriteRoom := {}
  halt : Option Halt := none

namespace Export

def run (e : Export) (dir : SnapshotDir) : Except AdminFailure Manifest × SnapshotDir :=
  match e.source.list with
  | .error f => (.error (.store f), dir)
  | .ok records =>
    let (reply, written) := Snapshot.exportTo e.path records e.now e.room dir
    match e.halt with
    | none => (reply, written)
    | some (.beforeRecords f) => (.error f, dir)
    | some (.beforeManifest f) => (.error f, { written with manifest := dir.manifest })

def directory (exports : List Export) : SnapshotDir :=
  exports.foldl (fun dir e => (e.run dir).2) {}

def exported? (e : Export) : Option (List Retirement × SnapshotDir) :=
  match e.run {}, e.source.list with
  | (.ok _, dir), .ok records => some (records, dir)
  | _, _ => none

def records? (e : Export) : Option (List UInt8) := (e.run {}).2.records

/-- The exports leave contents in the file of retirements that have different digests. -/
def DistinctDigests (exports : List Export) : Prop :=
  ∀ a ∈ exports.filterMap records?, ∀ b ∈ exports.filterMap records?,
    Sha256.hex a = Sha256.hex b → a = b

/-- What comes of an export, whatever the directory holds: it changes nothing, it replaces the file of
retirements and keeps the manifest, it cuts the manifest short, or it succeeds. -/
inductive Effect (e : Export) : Prop
  | idle (f : AdminFailure) (runs : ∀ dir, e.run dir = (.error f, dir))
  | cutRecords (f : AdminFailure) (octets : List UInt8)
      (runs : ∀ dir, e.run dir = (.error f, { dir with records := some octets }))
  | cutManifest (f : AdminFailure) (octets : List UInt8) (m : Manifest) (kept lost : List UInt8)
      (split : Snapshot.manifestBytes m = kept ++ lost) (cut : lost ≠ [])
      (runs : ∀ dir, e.run dir = (.error f, ⟨some octets, some kept⟩))
  | complete (records : List Retirement) (content : List UInt8)
      (listed : e.source.list = .ok records) (written : Snapshot.lines records = (content, false))
      (runs : ∀ dir, e.run dir = (.ok (Snapshot.manifestOf content records.length e.now),
        ⟨some content,
          some (Snapshot.manifestBytes (Snapshot.manifestOf content records.length e.now))⟩))

theorem exported?_of_runs {e : Export} {records : List Retirement} {m : Manifest} {dir : SnapshotDir}
    (listed : e.source.list = .ok records) (runs : ∀ before, e.run before = (.ok m, dir)) :
    e.exported? = some (records, dir) := by
  rw [exported?, runs, listed]

theorem effect (e : Export) : e.Effect := by
  cases listed : e.source.list with
  | error f => exact .idle (.store f) fun dir => by simp only [run, listed]
  | ok records =>
      have cases := Snapshot.exportTo_cases e.path records e.now e.room
      cases halt : e.halt with
      | none =>
          rcases cases with ⟨f, octets, runs⟩ | ⟨f, octets, m, kept, lost, split, cut, runs⟩ |
            ⟨content, written, runs⟩
          · exact .cutRecords f octets fun dir => by simp only [run, listed, halt, runs]
          · exact .cutManifest f octets m kept lost split cut fun dir => by
              simp only [run, listed, halt, runs]
          · exact .complete records content listed written fun dir => by
              simp only [run, listed, halt, runs]
      | some halt' =>
          cases halt' with
          | beforeRecords f => exact .idle f fun dir => by simp only [run, listed, halt]
          | beforeManifest f =>
              have replaced : ∃ octets, ∀ dir,
                  (Snapshot.exportTo e.path records e.now e.room dir).2.records = some octets := by
                rcases cases with ⟨g, octets, runs⟩ | ⟨g, octets, m, kept, lost, -, -, runs⟩ |
                  ⟨content, -, runs⟩
                · exact ⟨octets, fun dir => by rw [runs]⟩
                · exact ⟨octets, fun dir => by rw [runs]⟩
                · exact ⟨content, fun dir => by rw [runs]⟩
              obtain ⟨octets, left⟩ := replaced
              exact .cutRecords f octets fun dir => by simp only [run, listed, halt, left]

/-- What the manifest of the directory is after exports: none yet, one that was cut short, or that of the
last export that succeeded. -/
inductive ManifestState (exports : List Export) : Option (List UInt8) → Prop
  | none : ManifestState exports none
  | torn {m : Manifest} {kept lost : List UInt8} (split : Snapshot.manifestBytes m = kept ++ lost)
      (cut : lost ≠ []) : ManifestState exports (some kept)
  | whole {records : List Retirement} {content octets : List UInt8} {now : String}
      (last : (exports.filterMap exported?).getLast? = some (records, ⟨some content, some octets⟩))
      (written : Snapshot.lines records = (content, false))
      (held : content ∈ exports.filterMap records?)
      (same : octets = Snapshot.manifestBytes (Snapshot.manifestOf content records.length now)) :
      ManifestState exports (some octets)

structure LeftBy (exports : List Export) (dir : SnapshotDir) : Prop where
  records : ∀ octets, dir.records = some octets → octets ∈ exports.filterMap records?
  manifest : ManifestState exports dir.manifest

variable {exports : List Export} {e : Export} {dir : SnapshotDir}

theorem filterMap_concat {α : Type} (f : Export → Option α) (exports : List Export) (e : Export) :
    (exports ++ [e]).filterMap f = exports.filterMap f ++ (f e).toList := by
  cases own : f e <;> simp [own]

theorem ManifestState.failed {manifest : Option (List UInt8)} (state : ManifestState exports manifest)
    (failed : e.exported? = .none) : ManifestState (exports ++ [e]) manifest := by
  cases state with
  | none => exact .none
  | torn split cut => exact .torn split cut
  | whole last written held same =>
      refine .whole ?_ written ?_ same
      · rw [filterMap_concat, failed, Option.toList_none, List.append_nil, last]
      · rw [filterMap_concat]
        exact List.mem_append_left _ held

theorem mem_records {octets : List UInt8} (left : e.records? = some octets) :
    octets ∈ (exports ++ [e]).filterMap records? := by
  rw [filterMap_concat, left]
  exact List.mem_append_right _ (.head _)

theorem LeftBy.run (left : LeftBy exports dir) (e : Export) : LeftBy (exports ++ [e]) (e.run dir).2 := by
  have older {octets : List UInt8} (held : octets ∈ exports.filterMap records?) :
      octets ∈ (exports ++ [e]).filterMap records? := by
    rw [filterMap_concat]
    exact List.mem_append_left _ held
  cases e.effect with
  | idle f runs =>
      have failed : e.exported? = none := by rw [exported?, runs]
      rw [runs]
      exact ⟨fun octets held => older (left.records octets held), left.manifest.failed failed⟩
  | cutRecords f octets runs =>
      have failed : e.exported? = none := by rw [exported?, runs]
      have own : e.records? = some octets := by rw [records?, runs]
      rw [runs]
      refine ⟨fun other held => ?_, left.manifest.failed failed⟩
      cases held
      exact mem_records own
  | cutManifest f octets m kept lost split cut runs =>
      have own : e.records? = some octets := by rw [records?, runs]
      rw [runs]
      refine ⟨fun other held => ?_, .torn split cut⟩
      cases held
      exact mem_records own
  | complete records content listed written runs =>
      have done := exported?_of_runs listed runs
      have own : e.records? = some content := by rw [records?, runs]
      rw [runs]
      refine ⟨fun other held => ?_, .whole ?_ written (mem_records own) rfl⟩
      · cases held
        exact mem_records own
      · rw [filterMap_concat, done, Option.toList_some, List.getLast?_concat]

theorem left_directory (exports : List Export) : LeftBy exports (directory exports) := by
  -- Which export was the last to succeed changes at the end of the list, so this is where it grows.
  induction exports using List.reverseRecOn with
  | nil =>
      refine ⟨fun octets held => ?_, .none⟩
      cases held
  | append_singleton exports e ih =>
      have step : directory (exports ++ [e]) = (e.run (directory exports)).2 := List.foldl_append
      rw [step]
      exact ih.run e

end Export

namespace Snapshot

theorem readManifest_torn {m : Manifest} {kept lost : List UInt8}
    (split : manifestBytes m = kept ++ lost) (cut : lost ≠ []) (path : String)
    (records : Option (List UInt8)) : ∃ f, readManifest path ⟨records, some kept⟩ = .error f := by
  have unread : Json.ofSymbols? (Text.Utf8.decode kept) = none := Json.ofSymbols?_decode_cut split cut
  exact ⟨_, by rw [readManifest]; simp only [unread]; rfl⟩

theorem readManifest_whole {m n : Manifest} {path : String} {records : Option (List UInt8)}
    (read : readManifest path ⟨records, some (manifestBytes m)⟩ = .ok n) :
    n = m ∧ ∀ f ∈ m.files, f.records < Nat.pow 2 64 := by
  simp only [readManifest, ofSymbols?_manifestBytes, Option.bind_some] at read
  cases value : Manifest.ofJson? m.toJson with
  | none =>
      rw [value] at read
      cases read
  | some found =>
      rw [value] at read
      cases read
      exact Manifest.eq_of_ofJson? value

theorem lines_of_line? {r : Retirement} {octets : List UInt8} (written : line? r = some octets)
    (rest : List Retirement) : lines (r :: rest) = (octets ++ (lines rest).1, (lines rest).2) := by
  rw [lines_cons, written]

theorem hex_of_readRecordsFile {path now : String} {content octets : List UInt8} {count : Nat}
    {dir : SnapshotDir} (read : readRecordsFile path (manifestOf content count now) dir = .ok octets) :
    Sha256.hex octets = Sha256.hex content := by
  obtain ⟨-, file, found, digest⟩ := readRecordsFile_ok read
  obtain rfl := List.mem_singleton.mp (List.mem_of_find?_eq_some found)
  exact digest

end Snapshot

theorem Database.list_of_entries {db : Database} {rows : Catalog Row} {records : List Retirement}
    (table : db.table = some (.standard rows)) (entries : rows.entries = records.map Row.entry)
    (sorted : (records.map Row.entry).Pairwise (Select.precedes listingOrder · ·))
    (restored : ∀ r ∈ records, (Row.ofRetirement r).toRetirement r.agreementId = .ok r) :
    db.list = .ok records := by
  have read (statement : String) : db.readable statement = .ok rows := by
    simp [readable, table]
  unfold list
  rw [read]
  change (rows.entries.mergeSort (Select.precedes listingOrder)).mapM _ = _
  rw [entries, List.mergeSort_of_pairwise sorted, List.mapM_map]
  clear entries sorted
  induction records with
  | nil => rfl
  | cons r records ih =>
      have first : (Row.entry r).2.toRetirement (Row.entry r).1 = .ok r := restored r (.head _)
      rw [List.mapM_cons, ih fun other member => restored other (.tail _ member)]
      simp only [Function.comp_apply, first]
      rfl

namespace Export

variable {exports : List Export}

theorem exported_of_read (digests : DistinctDigests exports) {path : String} {records : List Retirement}
    (read : Snapshot.read path (directory exports) = .ok records) :
    (exports.filterMap exported?).getLast? = some (records, directory exports) ∧
      records.length < Nat.pow 2 64 := by
  obtain ⟨here, state⟩ := left_directory exports
  generalize directory exports = dir at here state read
  obtain ⟨file, manifest⟩ := dir
  unfold Snapshot.read at read
  obtain ⟨m, vouched, rest⟩ := bind_eq_ok.mp read
  obtain ⟨octets, opened, lines⟩ := bind_eq_ok.mp rest
  have own := (Snapshot.readRecordsFile_ok opened).1
  cases state with
  | none => cases vouched
  | torn split cut =>
      obtain ⟨f, unread⟩ := Snapshot.readManifest_torn split cut path file
      rw [unread] at vouched
      cases vouched
  | whole last written held same =>
      -- The file may be of a later export, but with the digest in the manifest it is the same octets.
      rw [same] at vouched
      obtain ⟨rfl, countable⟩ := Snapshot.readManifest_whole vouched
      obtain rfl := digests _ (here octets own) _ held (Snapshot.hex_of_readRecordsFile opened)
      rw [Snapshot.readLinesFrom_lines written] at lines
      cases lines
      cases own
      exact ⟨last, countable _ (.head _)⟩

theorem read_of_exported {records : List Retirement} {dir : SnapshotDir}
    (last : (exports.filterMap exported?).getLast? = some (records, dir))
    (countable : records.length < Nat.pow 2 64) (path : String) :
    Snapshot.read path dir = .ok records := by
  obtain ⟨e, -, done⟩ := List.mem_filterMap.mp (List.mem_of_getLast? last)
  cases e.effect with
  | idle f runs =>
      rw [exported?, runs] at done
      cases done
  | cutRecords f octets runs =>
      rw [exported?, runs] at done
      cases done
  | cutManifest f octets m kept lost split cut runs =>
      rw [exported?, runs] at done
      cases done
  | complete found content listed written runs =>
      rw [exported?_of_runs listed runs] at done
      cases done
      exact Snapshot.read_of_lines written countable e.now path

/-- After any exports into a directory, of any databases and stopped wherever they may be, it is read as
what the last export that succeeded has exported, or not at all. An import stores just these retirements,
or it fails and keeps all rows. -/
theorem imported_is_last_exported (digests : DistinctDigests exports) (target : Database)
    (access : WriteAccess) (path : String) :
    (∀ records, Snapshot.read path (directory exports) = .ok records ↔
      (exports.filterMap exported?).getLast? = some (records, directory exports) ∧
        records.length < Nat.pow 2 64) ∧
      (∀ summary after,
        (Database.importSnapshot access path (directory exports)).run target = (.ok summary, after) →
          ∃ records, Snapshot.read path (directory exports) = .ok records ∧
            Database.Added target records after ∧
            summary.importedRecords + summary.skippedRecords = records.length) ∧
      ∀ f after,
        (Database.importSnapshot access path (directory exports)).run target = (.error f, after) →
          Database.KeepsRows target after := by
  refine ⟨fun records => ?_, fun summary after done => ?_, fun f after failed => ?_⟩
  · exact ⟨exported_of_read digests, fun last => read_of_exported last.1 last.2 path⟩
  · obtain ⟨current, records, receipts, migrated, read, stored, rfl⟩ := Database.import_ok done
    obtain ⟨all, -⟩ := Database.run_mapM_of_insertAll stored
    obtain ⟨-, count, -⟩ := Database.run_mapM_insertIn_again all
    have kept := Database.keepsRows_migrate access target
    rw [migrated] at kept
    refine ⟨records, read, kept.added (Database.added_of_run_mapM all), ?_⟩
    rw [Snapshot.summarize_length, count]
  · exact Database.keepsRows_of_import_error failed

theorem imported_is_last_exported_mixed :
    let first : Retirement := .create "a-1" "MANUAL" "alice" .epoch
    let second : Retirement := .create "a-2" "EXPIRED" "bob" .epoch
    let holding (records : List Retirement) : Database :=
      Database.withRows .fresh (Catalog.fill ∅ (records.map Row.entry))
    ∃ n,
      let exports : List Export :=
        [{ source := holding [first], path := "backup", now := "then" },
          { source := holding [first, second], path := "backup", now := "now",
            room := { records := some n } }]
      DistinctDigests exports ∧ exports.filterMap exported? = [([first], directory exports)] ∧
        (Database.importSnapshot .granted "backup" (directory exports)).run .fresh =
          (.ok ⟨1, 0⟩, holding [first]) ∧
        Database.Added .fresh [first] (holding [first]) := by
  intro first second holding
  have listed : (holding [first]).list = .ok [first] :=
    Database.list_of_entries rfl rfl (by decide) (by decide)
  have listedBoth : (holding [first, second]).list = .ok [first, second] :=
    Database.list_of_entries rfl (by decide) (by decide) (by decide)
  obtain ⟨receipts, news, stored⟩ := Database.run_insertAll_storable Database.table_fresh
    (fun id row held => by cases held)
    (fun r (member : r ∈ [first]) => List.mem_singleton.mp member ▸ ⟨by decide, by decide, by decide⟩)
    (List.pairwise_singleton _ _)
  obtain ⟨receipt, rfl, new⟩ := List.map_eq_singleton_iff.mp news
  obtain ⟨a, one⟩ : ∃ a, Snapshot.line? first = some a := Option.isSome_iff_exists.mp (by decide)
  obtain ⟨b, two⟩ : ∃ b, Snapshot.line? second = some b := Option.isSome_iff_exists.mp (by decide)
  clear_value first second
  have none : Snapshot.lines [] = ([], false) := rfl
  have linesOne : Snapshot.lines [first] = (a, false) := by
    rw [Snapshot.lines_of_line? one, none, List.append_nil]
  have linesTwo : Snapshot.lines [first, second] = (a ++ b, false) := by
    rw [Snapshot.lines_of_line? one, Snapshot.lines_of_line? two, none, List.append_nil]
  have short : decide ((a ++ b).length ≤ a.length) = false := by
    obtain ⟨j, -, rfl⟩ := Snapshot.exists_line? two
    simp only [List.length_append, List.length_singleton, decide_eq_false_iff_not]
    omega
  have early (dir : SnapshotDir) : Snapshot.exportTo "backup" [first] "then" {} dir =
      (.ok (Snapshot.manifestOf a 1 "then"),
        ⟨some a, some (Snapshot.manifestBytes (Snapshot.manifestOf a 1 "then"))⟩) := by
    simp [Snapshot.exportTo, linesOne, Snapshot.write]
  have late (dir : SnapshotDir) :
      Snapshot.exportTo "backup" [first, second] "now" { records := some a.length } dir =
        (.error (.refused
            ("failed to write export file " ++ Snapshot.fileIn "backup" Snapshot.recordsFile)),
          { dir with records := some a }) := by
    simp only [Snapshot.exportTo, linesTwo, Snapshot.write, short, List.take_left]
    rfl
  refine ⟨a.length, ?_⟩
  intro exports
  have dir : directory exports =
      ⟨some a, some (Snapshot.manifestBytes (Snapshot.manifestOf a 1 "then"))⟩ := by
    simp [exports, directory, run, listed, listedBoth, early, late]
  have files : exports.filterMap records? = [a, a] := by
    simp [exports, records?, run, listed, listedBoth, early, late]
  have done : exports.filterMap exported? = [([first], directory exports)] := by
    rw [dir]
    simp [exports, exported?, run, listed, listedBoth, early, late]
  have digests : DistinctDigests exports := by
    simp [DistinctDigests, files]
  obtain ⟨reads, stores, -⟩ := imported_is_last_exported digests .fresh .granted "backup"
  have read : Snapshot.read "backup" (directory exports) = .ok [first] :=
    (reads [first]).mpr ⟨by rw [done]; rfl, by simp⟩
  have imported : (Database.importSnapshot .granted "backup" (directory exports)).run .fresh =
      (.ok ⟨1, 0⟩, holding [first]) := by
    rw [Database.run_importSnapshot,
      Database.run_migrate_current .granted Database.recordedVersion_fresh, read]
    dsimp only
    rw [stored]
    have fresh : receipt.wasNew = true := new
    simp [Snapshot.summarize, fresh, holding]
  obtain ⟨records, again, added, -⟩ := stores _ _ imported
  cases read.symm.trans again
  exact ⟨digests, done, imported, added⟩

end Export

end RetirementLedger

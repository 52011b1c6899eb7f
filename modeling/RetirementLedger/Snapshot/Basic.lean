import RetirementLedger.Database.Records
import RetirementLedger.Json.Reader
import RetirementLedger.Json.Writer
import RetirementLedger.Snapshot.Sha256

namespace RetirementLedger

structure ExportedFile where
  path : String
  sha256 : String
  records : Nat
  deriving Repr, DecidableEq, Inhabited

structure Manifest where
  schemaVersion : Int
  exportedAt : String
  files : List ExportedFile
  deriving Repr, DecidableEq, Inhabited

structure ImportSummary where
  importedRecords : Nat
  skippedRecords : Nat
  deriving Repr, DecidableEq, Inhabited

structure SnapshotDir where
  records : Option (List UInt8) := none
  manifest : Option (List UInt8) := none
  deriving Inhabited

/-- How much of each file the disk takes in an export: `none` for all of it, or so many octets before
writing fails. -/
structure WriteRoom where
  records : Option Nat := none
  manifest : Option Nat := none
  deriving Inhabited

namespace ExportedFile

def fields : List (List String) := [["path"], ["sha256"], ["records"]]

def toJson (f : ExportedFile) : Json :=
  .ofFields [("path", .text f.path), ("sha256", .text f.sha256), ("records", .nat f.records)]

def ofJson? (j : Json) : Option ExportedFile := do
  let [path, sha256, records] ← j.slots? fields | none
  return ⟨← path.required Json.text?, ← sha256.required Json.text?,
    ← records.required (Json.word? 64)⟩

end ExportedFile

namespace Manifest

def fields : List (List String) := [["schema_version"], ["exported_at"], ["files"]]

def toJson (m : Manifest) : Json :=
  .ofFields [("schema_version", .integer m.schemaVersion), ("exported_at", .text m.exportedAt),
    ("files", .array (m.files.map ExportedFile.toJson))]

def ofJson? (j : Json) : Option Manifest := do
  let [version, exported, files] ← j.slots? fields | none
  return ⟨← version.required Json.signed64?, ← exported.required Json.text?,
    ← files.required (Json.list? ExportedFile.ofJson?)⟩

end Manifest

namespace ImportSummary

def fields : List (List String) := [["imported_records"], ["skipped_existing_records"]]

def toJson (s : ImportSummary) : Json :=
  .ofFields [("imported_records", .nat s.importedRecords),
    ("skipped_existing_records", .nat s.skippedRecords)]

def ofJson? (j : Json) : Option ImportSummary := do
  let [imported, skipped] ← j.slots? fields | none
  return ⟨← imported.required (Json.word? 64), ← skipped.required (Json.word? 64)⟩

end ImportSummary

namespace Snapshot

def recordsFile : String := "agreement_retirements.ndjson"

def manifestFile : String := "manifest.json"

def fileIn (path file : String) : String :=
  if path.isEmpty || path.endsWith "/" then path ++ file else path ++ "/" ++ file

def line? (r : Retirement) : Option (List UInt8) :=
  r.toJson?.map fun j => Text.Utf8.encode j.render ++ [0x0A]

/-- The lines of the retirements up to the first one that cannot be written, and whether there was
such a one. -/
def lines : List Retirement → List UInt8 × Bool
  | [] => ([], false)
  | r :: rest =>
    match line? r with
    | none => ([], true)
    | some octets =>
      let (more, broken) := lines rest
      (octets ++ more, broken)

def manifestOf (content : List UInt8) (records : Nat) (exportedAt : String) : Manifest :=
  { schemaVersion := Database.latestVersion
    exportedAt
    files := [⟨recordsFile, Sha256.hex content, records⟩] }

def manifestBytes (m : Manifest) : List UInt8 := Text.Utf8.encode m.toJson.renderPretty

def write (content : List UInt8) (room : Option Nat) : List UInt8 × Bool :=
  match room with
  | none => (content, true)
  | some n => (content.take n, content.length ≤ n)

/-- Writes the retirements and then the manifest into the directory at `path`. Whatever fails, the file
of retirements has been replaced by then, and the manifest only if nothing failed before. -/
def exportTo (path : String) (records : List Retirement) (exportedAt : String) (room : WriteRoom)
    (dir : SnapshotDir) : Except AdminFailure Manifest × SnapshotDir :=
  let (content, broken) := lines records
  let (onDisk, whole) := write content room.records
  let dir := { dir with records := some onDisk }
  if broken then (.error (.refused "failed to serialize NDJSON row"), dir)
  else if !whole then
    (.error (.refused ("failed to write export file " ++ fileIn path recordsFile)), dir)
  else
    let manifest := manifestOf content records.length exportedAt
    let (onDisk, whole) := write (manifestBytes manifest) room.manifest
    let dir := { dir with manifest := some onDisk }
    if whole then (.ok manifest, dir)
    else
      (.error (.refused ("failed to write export manifest " ++ fileIn path manifestFile)), dir)

def splitLines : List UInt8 → List (List UInt8)
  | [] => []
  | b :: rest =>
    if b = 0x0A then [] :: splitLines rest
    else
      match splitLines rest with
      | [] => [[b]]
      | first :: others => (b :: first) :: others

def readLine (path : String) (number : Nat) (octets : List UInt8) :
    Except AdminFailure (Option Retirement) :=
  let place := toString number ++ " from " ++ fileIn path recordsFile
  match Text.Utf8.toText? octets with
  | none => .error (.refused ("failed to read line " ++ place))
  | some text =>
    let trimmed := Text.trim text
    if trimmed.isEmpty then .ok none
    else
      match (Json.parse? trimmed).bind Retirement.ofJson? with
      | some r => .ok (some r)
      | none => .error (.refused ("failed to parse NDJSON row " ++ place))

def readLinesFrom (path : String) :
    Nat → List (List UInt8) → Except AdminFailure (List Retirement)
  | _, [] => .ok []
  | number, octets :: rest => do
    let first ← readLine path number octets
    let others ← readLinesFrom path (number + 1) rest
    return first.toList ++ others

def readManifest (path : String) (dir : SnapshotDir) : Except AdminFailure Manifest :=
  match dir.manifest with
  | none => .error (.refused ("failed to read manifest file " ++ fileIn path manifestFile))
  | some octets =>
    match (Json.ofSymbols? (Text.Utf8.decode octets)).bind Manifest.ofJson? with
    | some m => .ok m
    | none => .error (.refused ("failed to parse manifest JSON " ++ fileIn path manifestFile))

def readRecordsFile (path : String) (m : Manifest) (dir : SnapshotDir) :
    Except AdminFailure (List UInt8) :=
  if m.schemaVersion ≤ 0 ∨ Database.latestVersion < m.schemaVersion then
    .error (.refused ("unsupported export schema version " ++ toString m.schemaVersion ++
      "; supported range is 1..=" ++ toString Database.latestVersion))
  else
    match m.files.find? (·.path == recordsFile) with
    | none => .error (.refused ("manifest is missing required file entry: " ++ recordsFile))
    | some file =>
      match dir.records with
      | none =>
        .error (.refused ("manifest references missing file " ++ fileIn path recordsFile))
      | some octets =>
        let actual := Sha256.hex octets
        if actual = file.sha256 then .ok octets
        else
          .error (.refused ("manifest digest mismatch for " ++ recordsFile ++ ": expected " ++
            file.sha256 ++ ", got " ++ actual))

def read (path : String) (dir : SnapshotDir) : Except AdminFailure (List Retirement) := do
  let manifest ← readManifest path dir
  let octets ← readRecordsFile path manifest dir
  readLinesFrom path 1 (splitLines octets)

def summarize (receipts : List Receipt) : ImportSummary :=
  ⟨receipts.countP (·.wasNew), receipts.countP (!·.wasNew)⟩

end Snapshot

namespace Database

def Task.ofWork {α : Type} (work : Work α) : Task α := fun db =>
  match work db with
  | (.ok a, db) => (.ok a, db)
  | (.error f, db) => (.error (.store f), db)

def importRecords (access : WriteAccess) (path : String) (dir : SnapshotDir) :
    Task (List Receipt) := do
  migrate access
  let records ← (Snapshot.read path dir : Except AdminFailure (List Retirement))
  Task.ofWork (insertAll access records)

def importSnapshot (access : WriteAccess) (path : String) (dir : SnapshotDir) :
    Task ImportSummary := do
  return Snapshot.summarize (← importRecords access path dir)

end Database

end RetirementLedger

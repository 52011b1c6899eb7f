import RetirementLedger.Administration
import RetirementLedger.CommandLine.Setting
import RetirementLedger.Enforcement
import RetirementLedger.LogFormat
import RetirementLedger.Policy

namespace RetirementLedger.Operator
open CommandLine

structure Settings where
  database : String := "./agreement_retirement.sqlite3"
  busyMillis : Nat := defaultBusyMillis
  auditUrl : Option String := none
  auditTimeoutMillis : Nat := 5000
  logFormat : LogFormat := .pretty
  deriving Repr, DecidableEq, Inhabited

structure RetireSettings where
  agreementId : String := ""
  reason : String := ""
  actor : String := "operator-cli"
  deriving Repr, DecidableEq, Inhabited

structure ListSettings where
  query : RetirementQuery := {}
  retiredAfter : Option String := none
  retiredBefore : Option String := none
  deriving DecidableEq, Inhabited

structure JudgeSettings where
  validFrom : Option String := none
  validUntil : Option String := none
  instant : Option String := none
  deriving Repr, DecidableEq, Inhabited

inductive Command where
  | schemaVersion
  | migrate (dryRun : Bool)
  | checkIntegrity
  | exportTo (dir : String)
  | importFrom (dir : String)
  | retire (settings : RetireSettings)
  | showRecord (agreementId : String)
  | check (agreementId : String)
  | list (settings : ListSettings)
  | judge (settings : JudgeSettings)
  deriving Inhabited

structure Invocation where
  settings : Settings
  command : Command
  deriving Inhabited

def Settings.address (s : Settings) : DatabaseAddress := ⟨s.database, s.busyMillis⟩

def settings : List (Setting Settings) :=
  [.path "db" (fun v s => { s with database := v }) "AR_DB",
    .count "busy-timeout-ms" 64 (fun v s => { s with busyMillis := v }) "AR_BUSY_TIMEOUT_MS",
    .text "audit-url" (fun v s => { s with auditUrl := some v }) "AR_AUDIT_URL",
    .count "audit-timeout-ms" 64 (fun v s => { s with auditTimeoutMillis := v })
      "AR_AUDIT_TIMEOUT_MS",
    .reading "log-format" (fun v => (LogFormat.parse v).toOption)
      (fun v s => { s with logFormat := v }) "AR_LOG_FORMAT"]

def retireSettings : List (Setting RetireSettings) :=
  [.required (.text "agreement-id" fun v s => { s with agreementId := v }),
    .required (.text "reason" fun v s => { s with reason := v }),
    .text "actor" (fun v s => { s with actor := v }) "AR_ACTOR"]

def listSettings : List (Setting ListSettings) :=
  [.text "agreement-id" fun v s => { s with query.agreementId := some v },
    .text "agreement-id-prefix" fun v s => { s with query.agreementIdPrefix := some v },
    .text "reason" fun v s => { s with query.reason := some v },
    .text "reason-prefix" fun v s => { s with query.reasonPrefix := some v },
    .text "retired-after" fun v s => { s with retiredAfter := some v },
    .text "retired-before" fun v s => { s with retiredBefore := some v },
    .word32 "offset" fun v s => { s with query.offset := some v },
    .word32 "limit" fun v s => { s with query.limit := some v },
    .reading "order" SortOrder.ofName? fun v s => { s with query.order := some v }]

def judgeSettings : List (Setting JudgeSettings) :=
  [.text "valid-from" fun v s => { s with validFrom := some v },
    .text "valid-until" fun v s => { s with validUntil := some v },
    .text "at" fun v s => { s with instant := some v }]

def names : List (List String) :=
  [[], ["db"], ["db", "schema-version"], ["db", "migrate"], ["db", "integrity-check"],
    ["db", "export"], ["db", "import"], ["retire"], ["show"], ["check"], ["list"], ["policy"],
    ["policy", "eval"]]

def help (group words : List String) : Refusal :=
  if names.contains (group ++ words) || words == ["help"] then .help else .usage

def choice (arguments : List String) : Except Refusal (List String) := do
  return (← Reading.read ([] : List (Setting Unit)) .command ⟨(), []⟩ arguments).2

def readSettings {σ : Type} (known : List (Setting σ)) (defaults : σ) (environment : Environment)
    (arguments : List String) : Except Refusal σ := do
  return (← readAll known 0 defaults environment arguments).1

def readId (environment : Environment) (arguments : List String) : Except Refusal String := do
  match ← readAll ([] : List (Setting Unit)) 1 () environment arguments with
  | (_, [id]) => return id
  | _ => throw .usage

def databaseCommand? (environment : Environment) (arguments : List String) :
    Except Refusal Command := do
  match ← choice arguments with
  | "schema-version" :: rest =>
    let () ← readSettings [] () environment rest
    return .schemaVersion
  | "migrate" :: rest =>
    return .migrate (← readSettings [.switch "dry-run" fun v _ => v] false environment rest)
  | "integrity-check" :: rest =>
    let () ← readSettings [] () environment rest
    return .checkIntegrity
  | "export" :: rest =>
    return .exportTo (← readSettings [.required (.path "out" fun v _ => v)] "" environment rest)
  | "import" :: rest =>
    return .importFrom (← readSettings [.required (.path "in" fun v _ => v)] "" environment rest)
  | "help" :: words => throw (help ["db"] words)
  | _ => throw .usage

def policyCommand? (environment : Environment) (arguments : List String) :
    Except Refusal Command := do
  match ← choice arguments with
  | "eval" :: rest => return .judge (← readSettings judgeSettings {} environment rest)
  | "help" :: words => throw (help ["policy"] words)
  | _ => throw .usage

def command? (environment : Environment) : List String → Except Refusal Command
  | "db" :: rest => databaseCommand? environment rest
  | "policy" :: rest => policyCommand? environment rest
  | "retire" :: rest => do return .retire (← readSettings retireSettings {} environment rest)
  | "show" :: rest => do return .showRecord (← readId environment rest)
  | "check" :: rest => do return .check (← readId environment rest)
  | "list" :: rest => do return .list (← readSettings listSettings {} environment rest)
  | "help" :: words => throw (help [] words)
  | _ => throw .usage

def parse? (environment : Environment) (arguments : List String) : Except Refusal Invocation := do
  let (general, rest) ← Reading.read settings .command ⟨{}, []⟩ arguments
  let command ← command? environment rest
  return ⟨← general.finish settings environment, command⟩

/-- What a command comes to. A record that cannot be written where nothing else can be shown breaks the
command off, and so does a wait that is too long. -/
inductive Outcome where
  | printed (result : Json)
  | failed (message : String)
  | brokenOff
  deriving Repr, Inhabited

def formatVersion : String := "cli.v1"

def stamped (fields : List (String × Json)) : Outcome :=
  .printed (.ofFields (fields ++ [("contract_version", .text formatVersion)]))

def stampedValue : Json → Outcome
  | .object members =>
    .printed (.object (members ++ [(some "contract_version", .text formatVersion)]))
  | other => stamped [("payload", other)]

def administer {α : Type} (task : DiskTask α) (result : α → Outcome) : StateM Disk Outcome := do
  match ← task.run with
  | .ok a => return result a
  | .error .waitTooLong => return .brokenOff
  | .error f => return .failed f.message

def withStore (address : DatabaseAddress) (work : DiskWork Outcome) : StateM Disk Outcome := do
  match ← (StoreFile.openStore address).run with
  | .error .waitTooLong => return .brokenOff
  | .error _ => return .failed ("failed to open retirement store " ++ address.name)
  | .ok () =>
    match ← work.run with
    | .ok outcome => return outcome
    | .error f => return .failed f.message

def schemaReport (s : SchemaStatus) : Outcome :=
  stamped [("current_version", .integer s.currentVersion),
    ("target_version", .integer s.targetVersion),
    ("pending_versions", .array (s.pendingVersions.map .integer)),
    ("up_to_date", .bool s.pendingVersions.isEmpty),
    ("inferred_from_legacy", .bool s.inferredFromLegacy)]

def recordReport (agreementId : String) : Option Retirement → Outcome
  | none =>
    stamped [("agreement_id", .text agreementId), ("retired", .bool false), ("record", .null)]
  | some r =>
    match r.toJson? with
    | some record =>
      stamped [("agreement_id", .text agreementId), ("retired", .bool true), ("record", record)]
    | none => .brokenOff

def decisionReport (agreementId : String) (d : Decision) : Outcome :=
  stamped [("agreement_id", .text agreementId), ("allowed", .bool d.isAllowed),
    ("decision", d.toJson)]

def retire (address : DatabaseAddress) (s : RetireSettings) (now : Instant) : StateM Disk Outcome :=
  withStore address do
    let r := Retirement.create s.agreementId s.reason s.actor now
    r.validate
    match (← StoreFile.insert address r).toJson? with
    | some receipt => return stampedValue receipt
    | none => return .failed "failed to serialize retirement outcome"

def ListSettings.read (s : ListSettings) : Except String RetirementQuery := do
  let bound : Option String → Except String (Option Instant)
    | none => .ok none
    | some raw =>
      match Instant.ofRfc3339? raw with
      | some t => .ok (some t)
      | none => .error ("invalid RFC3339 timestamp: " ++ raw)
  return { s.query with
    retiredAfter := ← bound s.retiredAfter
    retiredBefore := ← bound s.retiredBefore }

def list (address : DatabaseAddress) (s : ListSettings) : StateM Disk Outcome :=
  withStore address do
    match s.read with
    | .error message => return .failed message
    | .ok query =>
      let selection ← query.compile
      let page : Page := ⟨← StoreFile.select address selection, selection.offset, selection.limit⟩
      match page.toJson? with
      | some page => return stampedValue page
      | none => return .failed "failed to serialize retirement page"

def judge (s : JudgeSettings) (now : Instant) : Outcome :=
  let judgeAt (t : Instant) : Outcome :=
    let verdict := Policy.judge t s.validFrom s.validUntil
    match t.toJson? with
    | some stamp =>
      stamped [("at", stamp), ("satisfied", .bool verdict.isSatisfied), ("result", verdict.toJson)]
    | none => .failed Instant.unwritable
  match s.instant with
  | none => judgeAt now
  | some raw =>
    match Instant.ofText? raw with
    | some t => judgeAt t
    | none => .failed ("invalid --at instant (RFC 3339 or epoch seconds): " ++ raw)

def exportTo (address : DatabaseAddress) (dir : String) (now : Instant) : StateM Disk Outcome :=
  match now.rfc3339? with
  | none => return .failed "failed to format RFC3339 timestamp"
  | some stamp =>
    administer (Administration.exportSnapshot address dir stamp) fun manifest =>
      stamped [("out_dir", .text dir), ("manifest", manifest.toJson)]

def importFrom (address : DatabaseAddress) (dir : String) : StateM Disk Outcome :=
  administer (Administration.importSnapshot address dir) fun summary =>
    stamped [("in_dir", .text dir), ("summary", summary.toJson)]

def run (i : Invocation) (now : Instant) : StateM Disk Outcome :=
  let address := i.settings.address
  match i.command with
  | .schemaVersion => administer (Administration.schemaStatus address) schemaReport
  | .migrate dryRun => administer (Administration.migrate address dryRun) (stampedValue ·.toJson)
  | .checkIntegrity => administer (Administration.integrity address) (stampedValue ·.toJson)
  | .exportTo dir => exportTo address dir now
  | .importFrom dir => importFrom address dir
  | .retire s => retire address s now
  | .showRecord id => withStore address do return recordReport id (← StoreFile.find? address id)
  | .check id =>
    withStore address do
      let found ← ExceptT.lift (StoreFile.find? address id).run
      return decisionReport id (.ofLookup id found)
  | .list s => list address s
  | .judge s => return judge s now

def places (i : Invocation) : List Place :=
  let files :=
    match Location.ofName? i.settings.database with
    | some (.file path _) =>
      let p := Path.place path
      [p, p.beside Disk.journalSuffix, p.beside Disk.logSuffix, p.beside Disk.indexSuffix]
    | _ => []
  let snapshot (dir : String) : List Place :=
    [Snapshot.recordsFile, Snapshot.manifestFile].flatMap fun file =>
      Path.places (Snapshot.fileIn dir file)
  let own :=
    match i.command with
    | .exportTo dir | .importFrom dir => snapshot dir
    | _ => []
  files.flatMap (fun p => Path.places p.path) ++ own

end RetirementLedger.Operator

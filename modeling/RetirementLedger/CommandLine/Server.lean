import RetirementLedger.Administration
import RetirementLedger.Audit
import RetirementLedger.CommandLine.Address
import RetirementLedger.CommandLine.Setting
import RetirementLedger.LogFormat
import RetirementLedger.Monitor.Scan

namespace RetirementLedger.Server
open CommandLine

structure Settings where
  database : String := "./agreement_retirement.sqlite3"
  inMemory : Bool := false
  address : ListenAddress := ⟨.four #v[127, 0, 0, 1], 4020⟩
  busyMillis : Nat := defaultBusyMillis
  sourceUrl : Option String := none
  sourceTimeoutMillis : Nat := 10000
  monitorIntervalSeconds : Nat := 60
  monitorStoreTimeoutMillis : Nat := 5000
  disableMonitor : Bool := false
  auditUrl : Option String := none
  auditTimeoutMillis : Nat := 5000
  auditQueueCapacity : Nat := 1024
  logFormat : LogFormat := .pretty
  deriving Repr, DecidableEq

def settings : List (Setting Settings) :=
  [.path "db" (fun v s => { s with database := v }) "AR_DB",
    .switch "in-memory" (fun v s => { s with inMemory := v }) "AR_IN_MEMORY",
    .reading "bind" ListenAddress.ofText? (fun v s => { s with address := v }) "AR_BIND",
    .count "busy-timeout-ms" 64 (fun v s => { s with busyMillis := v }) "AR_BUSY_TIMEOUT_MS",
    .text "source-url" (fun v s => { s with sourceUrl := some v }) "AR_SOURCE_URL",
    .count "source-timeout-ms" 64 (fun v s => { s with sourceTimeoutMillis := v })
      "AR_SOURCE_TIMEOUT_MS",
    .count "monitor-interval-secs" 64 (fun v s => { s with monitorIntervalSeconds := v })
      "AR_MONITOR_INTERVAL_SECS",
    .count "monitor-store-timeout-ms" 64 (fun v s => { s with monitorStoreTimeoutMillis := v })
      "AR_MONITOR_STORE_TIMEOUT_MS",
    .switch "disable-monitor" (fun v s => { s with disableMonitor := v }) "AR_DISABLE_MONITOR",
    .text "audit-url" (fun v s => { s with auditUrl := some v }) "AR_AUDIT_URL",
    .count "audit-timeout-ms" 64 (fun v s => { s with auditTimeoutMillis := v })
      "AR_AUDIT_TIMEOUT_MS",
    .count "audit-queue-capacity" 64 (fun v s => { s with auditQueueCapacity := v })
      "AR_AUDIT_QUEUE_CAPACITY",
    .reading "log-format" (fun v => (LogFormat.parse v).toOption)
      (fun v s => { s with logFormat := v }) "AR_LOG_FORMAT"]

def parse? (environment : Environment) (arguments : List String) : Except Refusal Settings := do
  return (← readAll settings 0 {} environment arguments).1

def Settings.toJson (s : Settings) : Json :=
  .ofFields [("db", .text s.database), ("in_memory", .bool s.inMemory),
    ("bind", .text s.address.toText), ("busy_timeout_ms", .nat s.busyMillis),
    ("source_url", .ofOption .text s.sourceUrl),
    ("source_timeout_ms", .nat s.sourceTimeoutMillis),
    ("monitor_interval_secs", .nat s.monitorIntervalSeconds),
    ("monitor_store_timeout_ms", .nat s.monitorStoreTimeoutMillis),
    ("disable_monitor", .bool s.disableMonitor), ("audit_url", .ofOption .text s.auditUrl),
    ("audit_timeout_ms", .nat s.auditTimeoutMillis),
    ("audit_queue_capacity", .nat s.auditQueueCapacity), ("log_format", .text s.logFormat.name)]

inductive Level where
  | information
  | warning
  deriving Repr, DecidableEq, Inhabited

def Level.name : Level → String
  | .information => "INFO"
  | .warning => "WARN"

inductive Ending where
  | stopped
  | failed (message : String)
  | brokenOff
  deriving Repr, DecidableEq, Inhabited

structure Run where
  log : List (Level × String) := []
  ending : Ending
  deriving Repr, DecidableEq, Inhabited

/-- The monitor's settings, if there is a monitor: one needs agreements to look at, and takes at least
a second between two scans. -/
def monitorConfig (s : Settings) : Option MonitorConfig :=
  if s.sourceUrl.isSome && !s.disableMonitor then
    some
      { intervalMillis := max s.monitorIntervalSeconds 1 * 1000
        sourceTimeoutMillis := s.sourceTimeoutMillis
        storeTimeoutMillis := s.monitorStoreTimeoutMillis }
  else none

def inMemoryLines (s : Settings) : List (Level × String) :=
  if s.inMemory then
    [(.warning, "using in-memory retirement store; retirements will not survive restart")]
  else []

def monitorLines (s : Settings) : List (Level × String) :=
  if (monitorConfig s).isNone then [(.information, "policy monitor disabled")] else []

def openStore (s : Settings) : StateM Disk (Except AdminFailure Unit) :=
  if s.inMemory then return .ok () else (StoreFile.openStore ⟨s.database, s.busyMillis⟩).run

/-- A run of the server that is told to stop as soon as it listens. -/
def run (s : Settings) : StateM Disk Run := do
  match ← openStore s with
  | .error .waitTooLong => return { ending := .brokenOff }
  | .error _ => return { ending := .failed ("failed to open retirement store " ++ s.database) }
  | .ok () =>
    let log := inMemoryLines s
    if !NoticeQueue.isCapacity s.auditQueueCapacity then return { log, ending := .brokenOff }
    let log := log ++ monitorLines s
    if s.address.isOwn then
      return { ending := .stopped
               log := log ++
                 [(.information, "agreement retirement service listening"),
                   (.information, "agreement retirement service stopped")] }
    else return { log, ending := .failed "Cannot assign requested address (os error 99)" }

end RetirementLedger.Server

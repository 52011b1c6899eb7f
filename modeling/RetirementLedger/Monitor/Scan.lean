import RetirementLedger.Monitor.Watch
import RetirementLedger.Service

/-!
Scans for violated constraints. A scan lists the agreements, judges each one that is not terminated
and not known to be retired, and retires those that violate a constraint through the same service as
everyone else. Scans exclude each other, a failing retirement does not stop the rest of the scan, and
a cancelled scan stops before the next agreement.

A retirement that takes too long counts as failed, but the call goes on and may still complete; a
scan returns such calls as pending.
-/
namespace RetirementLedger

structure MonitorConfig where
  intervalMillis : Nat := 60000
  sourceTimeoutMillis : Nat := 10000
  storeTimeoutMillis : Nat := 5000
  deriving Repr, DecidableEq, Inhabited

structure Monitor where
  config : MonitorConfig := {}
  busy : Bool := false
  cycles : Nat := 0
  skippedBusy : Nat := 0
  aborted : Nat := 0
  watch : WatchTable := ∅
  lastReport : Option ScanReport := none
  lastError : Option String := none
  deriving Inhabited

inductive Listing where
  | listed (agreements : List Agreement)
  | failed (failure : Failure)
  | crashed
  | hangs
  deriving Inhabited

/-- How the monitor's call to retire an agreement ends as far as the scan waits for it. -/
inductive Attempt where
  | answered (reply : Reply Receipt)
  | stalled (call : RetireCall)

/-- When a scan is told to stop: before it starts, or by someone else while it visits the agreement
at some place of the listing. -/
structure StopSignal where
  early : Bool := false
  during : Nat → Bool := fun _ => false

structure Scan where
  monitor : Monitor
  service : Service
  report : ScanReport
  stopped : Bool := false
  listedIds : List String := []
  pending : List RetireCall := []

def monitorActor : String := "policy-monitor"

namespace Listing

def result (config : MonitorConfig) : Listing → Except Failure (List Agreement)
  | .listed agreements => .ok agreements
  | .failed f => .error f
  | .crashed => .error (.dependencyUnavailable "agreement listing task failed")
  | .hangs =>
    .error (.dependencyUnavailable
      ("agreement listing timed out after " ++ toString config.sourceTimeoutMillis ++ " ms"))

end Listing

namespace Attempt

def result (config : MonitorConfig) : Attempt → Except Failure Receipt
  | .answered (.ok receipt) => .ok receipt
  | .answered (.failed f) => .error f
  | .answered .crashed => .error (.persistence "retirement task failed")
  | .stalled _ =>
    .error (.transientStore
      ("retirement timed out after " ++ toString config.storeTimeoutMillis ++ " ms"))

def pending : Attempt → List RetireCall
  | .answered _ => []
  | .stalled call => [call]

/-- Retires an agreement for the monitor. The `Bool` says that the call told the scan to stop. Of the
faults of an insertion, a crash or a failure comes before that, a stall after it. -/
def make (s : Service) (agreementId constraintId : String) : Attempt × Bool × Service :=
  let reason := ReasonCode.violationReason constraintId
  match (RetireCall.asked agreementId reason monitorActor).step s with
  | (.checked r, s) =>
    match s.store.insertFault r.agreementId with
    | some reply => (.answered reply, false, s)
    | none =>
      let stops := s.store.faults.cancel r.agreementId
      if s.store.faults.stall r.agreementId then (.stalled (.checked r), stops, s)
      else
        let (reply, s) := (RetireCall.checked r).finish s
        (.answered reply, stops, s)
  | (call, s) => (.answered call.reply, false, s)

end Attempt

namespace Monitor

def status (m : Monitor) : MonitorStatus :=
  ⟨m.cycles, m.skippedBusy, m.aborted, m.lastReport, m.lastError, m.watch.values⟩

def enter (m : Monitor) : Option Monitor := if m.busy then none else some { m with busy := true }

def skip (m : Monitor) : Monitor := { m with skippedBusy := m.skippedBusy + 1 }

def abort (m : Monitor) (f : Failure) : Monitor :=
  { m with busy := false, aborted := m.aborted + 1, lastError := some f.message }

def complete (m : Monitor) (report : ScanReport) : Monitor :=
  { m with busy := false, cycles := m.cycles + 1, lastReport := some report, lastError := none }

end Monitor

namespace Scan

def mapWatch (sc : Scan) (f : WatchTable → WatchTable) : Scan :=
  { sc with monitor := { sc.monitor with watch := f sc.monitor.watch } }

def mapReport (sc : Scan) (f : ScanReport → ScanReport) : Scan := { sc with report := f sc.report }

def dismiss (sc : Scan) (agreementId : String) : Scan :=
  let known := sc.monitor.watch.contains agreementId
  (sc.mapWatch (·.erase agreementId)).mapReport fun r =>
    { r with removed := r.removed + if known then 1 else 0 }

/-- Takes note of how the retirement of an agreement ended. If it failed, the entry stays violated and
the next scan tries again. -/
def conclude (sc : Scan) (agreementId : String) (result : Except Failure Receipt) : Scan :=
  match result with
  | .ok receipt =>
    (sc.mapWatch (·.markRetired agreementId)).mapReport fun r =>
      if receipt.wasNew then { r with retired := r.retired + 1 }
      else { r with alreadyRetired := r.alreadyRetired + 1 }
  | .error _ => sc.mapReport fun r => { r with failures := r.failures + 1 }

def retireViolator (sc : Scan) (agreementId constraintId : String) : Scan :=
  let (attempt, stops, service) := Attempt.make sc.service agreementId constraintId
  let sc :=
    { sc with
      service
      stopped := sc.stopped || stops
      pending := sc.pending ++ attempt.pending }
  sc.conclude agreementId (attempt.result sc.monitor.config)

def judge (sc : Scan) (a : Agreement) : Scan × Option String :=
  let now := sc.service.clock
  let found := a.firstViolation? now
  let sc := (sc.mapWatch (·.record a found now)).mapReport fun r =>
    { r with evaluated := r.evaluated + 1 }
  match found with
  | none => (sc, none)
  | some (c, _) =>
    (sc.mapReport fun r => { r with violations := r.violations + 1 }, some c.constraintId)

def examine (sc : Scan) (a : Agreement) : Scan × Option String :=
  let sc := { sc with listedIds := a.agreementId :: sc.listedIds }
  if !a.status.isMonitored then (sc.dismiss a.agreementId, none)
  else if sc.monitor.watch.isRetired a.agreementId then (sc, none)
  else sc.judge a

def visit (sc : Scan) (a : Agreement) : Scan :=
  match sc.examine a with
  | (sc, none) => sc
  | (sc, some constraintId) => sc.retireViolator a.agreementId constraintId

def visitAll (signal : Nat → Bool) : Nat → Scan → List Agreement → Scan
  | _, sc, [] => sc
  | place, sc, a :: rest =>
    if sc.stopped then sc.mapReport fun r => { r with cancelled := true }
    else
      let sc := sc.visit a
      visitAll signal (place + 1) { sc with stopped := sc.stopped || signal place } rest

def prune (sc : Scan) : Scan :=
  if sc.report.cancelled then sc
  else
    let before := sc.monitor.watch.size
    let sc := sc.mapWatch (·.retain sc.listedIds.contains)
    sc.mapReport fun r => { r with removed := r.removed + (before - sc.monitor.watch.size) }

def close (sc : Scan) : Scan :=
  let report := { sc.report with finishedAt := some sc.service.clock }
  { sc with report, monitor := sc.monitor.complete report }

end Scan

structure ScanResult where
  outcome : Except Failure ScanOutcome
  monitor : Monitor
  service : Service
  pending : List RetireCall := []

namespace Monitor

def scanEntered (m : Monitor) (s : Service) (listing : Listing) (signal : StopSignal) :
    ScanResult :=
  match listing.result m.config with
  | .error f => { outcome := .error f, monitor := m.abort f, service := s }
  | .ok agreements =>
    let start : Scan :=
      { monitor := m, service := s, stopped := signal.early
        report := { startedAt := some s.clock, listed := agreements.length } }
    let sc := (start.visitAll signal.during 0 agreements).prune.close
    { outcome := .ok (.completed sc.report), monitor := sc.monitor, service := sc.service
      pending := sc.pending }

def scan (m : Monitor) (s : Service) (listing : Listing) (signal : StopSignal) : ScanResult :=
  match m.enter with
  | none => { outcome := .ok .skippedBusy, monitor := m.skip, service := s }
  | some m => m.scanEntered s listing signal

def overlap (m : Monitor) (s : Service) (listing : Listing) :
    ScanResult × Except Failure ScanOutcome :=
  match m.enter with
  | none => (m.scan s listing {}, .ok .skippedBusy)
  | some m =>
    let second := m.scan s listing {}
    (second.monitor.scanEntered second.service listing {}, second.outcome)

end Monitor

end RetirementLedger

import RetirementLedger.Agreement
import RetirementLedger.Catalog
import RetirementLedger.Retirement

namespace RetirementLedger

inductive WatchState where
  | watching
  | violated
  | retired
  deriving Repr, DecidableEq, Inhabited

structure WatchEntry where
  agreementId : String
  status : AgreementStatus
  state : WatchState
  constraintId : Option String
  violation : Option Violation
  lastEvaluatedAt : Instant
  deriving DecidableEq, Inhabited

structure ScanReport where
  startedAt : Option Instant := none
  finishedAt : Option Instant := none
  listed : Nat := 0
  evaluated : Nat := 0
  violations : Nat := 0
  retired : Nat := 0
  alreadyRetired : Nat := 0
  failures : Nat := 0
  removed : Nat := 0
  cancelled : Bool := false
  deriving DecidableEq, Inhabited

inductive ScanOutcome where
  | completed (report : ScanReport)
  | skippedBusy
  deriving DecidableEq, Inhabited

structure MonitorStatus where
  cycles : Nat
  skippedBusy : Nat
  aborted : Nat
  lastReport : Option ScanReport
  lastError : Option String
  watch : List WatchEntry
  deriving DecidableEq, Inhabited

abbrev WatchTable := Catalog WatchEntry

namespace WatchTable

def isRetired (w : WatchTable) (agreementId : String) : Bool :=
  (w.find? agreementId).any fun e => e.state == .retired

def record (w : WatchTable) (a : Agreement) (found : Option (Constraint × Violation))
    (now : Instant) : WatchTable :=
  w.insert a.agreementId
    { agreementId := a.agreementId
      status := a.status
      state := if found.isSome then .violated else .watching
      constraintId := found.map (·.1.constraintId)
      violation := found.map (·.2)
      lastEvaluatedAt := now }

def markRetired (w : WatchTable) (agreementId : String) : WatchTable :=
  w.modify agreementId fun e => { e with state := .retired }

end WatchTable

def Json.optionalInstant? : Option Instant → Option Json
  | none => some .null
  | some t => t.toJson?

namespace WatchState

def name : WatchState → String
  | .watching => "watching"
  | .violated => "violated"
  | .retired => "retired"

def ofName? : String → Option WatchState
  | "watching" => some .watching
  | "violated" => some .violated
  | "retired" => some .retired
  | _ => none

def toJson (s : WatchState) : Json := .text s.name

def ofJson? (j : Json) : Option WatchState := do ofName? (← j.constant?)

end WatchState

namespace WatchEntry

def fields : List (List String) :=
  [["agreement_id"], ["status"], ["state"], ["constraint_id"], ["violation"],
    ["last_evaluated_at"]]

def toJson? (e : WatchEntry) : Option Json := do
  let evaluated ← e.lastEvaluatedAt.toJson?
  return .ofFields [("agreement_id", .text e.agreementId), ("status", e.status.toJson),
    ("state", e.state.toJson), ("constraint_id", .ofOption .text e.constraintId),
    ("violation", .ofOption Violation.toJson e.violation), ("last_evaluated_at", evaluated)]

def ofJson? (depth : Nat) (j : Json) : Option WatchEntry := do
  let [id, status, state, constraint, violation, evaluated] ← j.slots? fields | none
  return ⟨← id.required Json.text?, ← status.required AgreementStatus.ofJson?,
    ← state.required WatchState.ofJson?, ← constraint.nullable Json.text?,
    ← violation.nullable (Violation.ofJson? (depth + 1)), ← evaluated.required Instant.ofJson?⟩

end WatchEntry

namespace ScanReport

def fields : List (List String) :=
  [["started_at"], ["finished_at"], ["listed"], ["evaluated"], ["violations"], ["retired"],
    ["already_retired"], ["failures"], ["removed"], ["cancelled"]]

def toJson? (r : ScanReport) : Option Json := do
  let started ← Json.optionalInstant? r.startedAt
  let finished ← Json.optionalInstant? r.finishedAt
  return .ofFields [("started_at", started), ("finished_at", finished), ("listed", .nat r.listed),
    ("evaluated", .nat r.evaluated), ("violations", .nat r.violations), ("retired", .nat r.retired),
    ("already_retired", .nat r.alreadyRetired), ("failures", .nat r.failures),
    ("removed", .nat r.removed), ("cancelled", .bool r.cancelled)]

def ofJson? (j : Json) : Option ScanReport := do
  let [started, finished, listed, evaluated, violations, retired, already, failures, removed,
    cancelled] ← j.slots? fields | none
  let count := fun (slot : Json.Slot) => slot.required (Json.word? 64)
  return ⟨← started.required (Json.nullable? Instant.ofJson?),
    ← finished.required (Json.nullable? Instant.ofJson?), ← count listed, ← count evaluated,
    ← count violations, ← count retired, ← count already, ← count failures, ← count removed,
    ← cancelled.required Json.bool?⟩

end ScanReport

namespace ScanOutcome

def toJson? : ScanOutcome → Option Json
  | .completed report => do
    return .ofFields [("outcome", .text "completed"), ("report", ← report.toJson?)]
  | .skippedBusy => some (.ofFields [("outcome", .text "skipped_busy")])

def ofJson? (j : Json) : Option ScanOutcome := do
  guard (j.isHeld 0)
  let (tag, rest) ← j.tagged? "outcome"
  match ← tag.text? with
  | "completed" =>
    let [report] ← rest.slots? [["report"]] | none
    return .completed (← report.required ScanReport.ofJson?)
  | "skipped_busy" => if rest.hasNoItems then some .skippedBusy else none
  | _ => none

end ScanOutcome

namespace MonitorStatus

def fields : List (List String) :=
  [["cycles"], ["skipped_busy"], ["aborted"], ["last_report"], ["last_error"], ["watch"]]

def toJson? (s : MonitorStatus) : Option Json := do
  let report ← match s.lastReport with
    | none => some Json.null
    | some r => r.toJson?
  let watch ← s.watch.mapM WatchEntry.toJson?
  return .ofFields [("cycles", .nat s.cycles), ("skipped_busy", .nat s.skippedBusy),
    ("aborted", .nat s.aborted), ("last_report", report),
    ("last_error", .ofOption .text s.lastError), ("watch", .array watch)]

def ofJson? (j : Json) : Option MonitorStatus := do
  let [cycles, skipped, aborted, report, error, watch] ← j.slots? fields | none
  return ⟨← cycles.required (Json.word? 64), ← skipped.required (Json.word? 64),
    ← aborted.required (Json.word? 64), ← report.nullable ScanReport.ofJson?,
    ← error.nullable Json.text?, ← watch.required (Json.list? (WatchEntry.ofJson? 2))⟩

end MonitorStatus

end RetirementLedger

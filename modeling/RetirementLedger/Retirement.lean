import RetirementLedger.Failure
import RetirementLedger.Instant.Text
import RetirementLedger.Json.Fields
import RetirementLedger.Reason

namespace RetirementLedger

namespace Instant

def toJson? (t : Instant) : Option Json := t.rfc3339?.map .text

def ofJson? (j : Json) : Option Instant := do ofRfc3339? (← j.text?)

end Instant

structure Retirement where
  agreementId : String
  reason : String
  retiredAt : Instant
  retiredBy : String
  deriving DecidableEq, Inhabited

structure Receipt where
  record : Retirement
  wasNew : Bool
  deriving DecidableEq, Inhabited

structure Notice where
  eventType : String
  agreementId : String
  reason : String
  retiredAt : Instant
  deriving DecidableEq, Inhabited

namespace Retirement

def create (agreementId reason retiredBy : String) (instant : Instant) : Retirement :=
  ⟨agreementId, reason, instant.truncateToMillis, retiredBy⟩

/-- The retirement may be stored: its agreement id is neither blank nor padded, and its reason and
actor are not blank. The first fault in this order is reported. -/
def validate (r : Retirement) : Except Failure Unit :=
  if Text.isBlankText r.agreementId then
    .error (.invalidArgument "agreement_id MUST be non-empty")
  else if Text.trim r.agreementId ≠ r.agreementId then
    .error (.invalidArgument "agreement_id MUST NOT have leading or trailing whitespace")
  else if Text.isBlankText r.reason then
    .error (.invalidArgument "reason MUST be non-empty")
  else if Text.isBlankText r.retiredBy then
    .error (.invalidArgument "retired_by MUST be non-empty")
  else .ok ()

def reasonCode (r : Retirement) : ReasonCode := .ofReason r.reason

def retiredAtMillis (r : Retirement) : Int := r.retiredAt.unixMillis

def fields : List (List String) :=
  [["agreement_id"], ["reason"], ["retired_at"], ["retired_by"]]

def toJson? (r : Retirement) : Option Json := do
  let stamp ← r.retiredAt.toJson?
  return .ofFields [("agreement_id", .text r.agreementId), ("reason", .text r.reason),
    ("retired_at", stamp), ("retired_by", .text r.retiredBy)]

def ofJson? (j : Json) : Option Retirement := do
  let [id, reason, stamp, actor] ← j.slots? fields | none
  return ⟨← id.required Json.text?, ← reason.required Json.text?,
    ← stamp.required Instant.ofJson?, ← actor.required Json.text?⟩

end Retirement

namespace Receipt

def toJson? (r : Receipt) : Option Json := do
  return .ofFields [("record", ← r.record.toJson?), ("was_new", .bool r.wasNew)]

def ofJson? (j : Json) : Option Receipt := do
  let [record, wasNew] ← j.slots? [["record"], ["was_new"]] | none
  return ⟨← record.required Retirement.ofJson?, ← wasNew.required Json.bool?⟩

end Receipt

namespace Notice

def retiredType : String := "ContractAgreementRetired"

def ofRetirement (r : Retirement) : Notice := ⟨retiredType, r.agreementId, r.reason, r.retiredAt⟩

def fields : List (List String) := [["eventType"], ["agreementId"], ["reason"], ["retiredAt"]]

def toJson? (n : Notice) : Option Json := do
  let stamp ← n.retiredAt.toJson?
  return .ofFields [("eventType", .text n.eventType), ("agreementId", .text n.agreementId),
    ("reason", .text n.reason), ("retiredAt", stamp)]

def ofJson? (j : Json) : Option Notice := do
  let [eventType, id, reason, stamp] ← j.slots? fields | none
  return ⟨← eventType.required Json.text?, ← id.required Json.text?,
    ← reason.required Json.text?, ← stamp.required Instant.ofJson?⟩

end Notice

end RetirementLedger

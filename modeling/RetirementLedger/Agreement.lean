import RetirementLedger.Policy

namespace RetirementLedger

inductive AgreementStatus where
  | negotiating
  | finalized
  | transferring
  | terminated
  | unknown
  deriving Repr, DecidableEq, Inhabited

structure Agreement where
  agreementId : String
  status : AgreementStatus
  constraints : List Constraint
  deriving Repr, DecidableEq, Inhabited

namespace AgreementStatus

def isMonitored (s : AgreementStatus) : Bool := s != .terminated

def name : AgreementStatus → String
  | .negotiating => "negotiating"
  | .finalized => "finalized"
  | .transferring => "transferring"
  | .terminated => "terminated"
  | .unknown => "unknown"

def ofName : String → AgreementStatus
  | "negotiating" => .negotiating
  | "finalized" => .finalized
  | "transferring" => .transferring
  | "terminated" => .terminated
  | _ => .unknown

def toJson (s : AgreementStatus) : Json := .text s.name

def ofJson? (j : Json) : Option AgreementStatus := j.constant?.map ofName

end AgreementStatus

namespace Agreement

def firstViolation? (a : Agreement) (now : Instant) : Option (Constraint × Violation) :=
  a.constraints.findSome? fun c => (c.judge now).violation?.map fun v => (c, v)

def fields : List (List String) := [["agreement_id"], ["status"], ["constraints"]]

def toJson (a : Agreement) : Json :=
  .ofFields [("agreement_id", .text a.agreementId), ("status", a.status.toJson),
    ("constraints", .array (a.constraints.map Constraint.toJson))]

def ofJson? (j : Json) : Option Agreement := do
  let [id, status, constraints] ← j.slots? fields | none
  return ⟨← id.required Json.text?, ← status.required AgreementStatus.ofJson?,
    ← constraints.withDefault [] (Json.list? Constraint.ofJson?)⟩

end Agreement

end RetirementLedger

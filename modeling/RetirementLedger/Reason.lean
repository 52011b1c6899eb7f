import RetirementLedger.Json.Fields
import RetirementLedger.Text.Blank

namespace RetirementLedger

inductive ReasonCode where
  | manual
  | policyViolation (constraintId : String)
  | expired
  | other
  deriving Repr, DecidableEq

namespace ReasonCode

def manualReason : String := "MANUAL"

def expiredReason : String := "EXPIRED"

def violationMark : String := "POLICY_VIOLATION:"

def violationReason (constraintId : String) : String := violationMark ++ constraintId

def afterMark? : List Char → List Char → Option (List Char)
  | [], rest => some rest
  | m :: mark, c :: rest => if m = c then afterMark? mark rest else none
  | _ :: _, [] => none

def ofReason (reason : String) : ReasonCode :=
  let cs := Text.trimChars reason.toList
  match afterMark? violationMark.toList cs with
  | some id => .policyViolation (String.ofList id)
  | none =>
    if cs = manualReason.toList then .manual
    else if cs = expiredReason.toList then .expired
    else .other

def toJson : ReasonCode → Json
  | .manual => .ofFields [("kind", .text "manual")]
  | .policyViolation id =>
    .ofFields [("kind", .text "policy_violation"), ("constraint_id", .text id)]
  | .expired => .ofFields [("kind", .text "expired")]
  | .other => .ofFields [("kind", .text "other")]

def ofJson? (j : Json) : Option ReasonCode := do
  guard (j.isHeld 0)
  let (tag, rest) ← j.tagged? "kind"
  match ← tag.text? with
  | "manual" => if rest.hasNoItems then some .manual else none
  | "policy_violation" =>
    let [id] ← rest.slots? [["constraint_id"]] | none
    return .policyViolation (← id.required Json.text?)
  | "expired" => if rest.hasNoItems then some .expired else none
  | "other" => if rest.hasNoItems then some .other else none
  | _ => none

end ReasonCode

end RetirementLedger

import RetirementLedger.Service

namespace RetirementLedger

inductive DenyCode where
  | retiredManual
  | retiredPolicyViolation
  | retiredExpired
  | retired
  | statusUnavailable
  | invalidAgreementId
  deriving Repr, DecidableEq, Inhabited

inductive Decision where
  | allow
  | deny (code : DenyCode) (message : String)
  deriving Repr, DecidableEq, Inhabited

namespace DenyCode

def name : DenyCode → String
  | .retiredManual => "AGREEMENT_RETIRED_MANUAL"
  | .retiredPolicyViolation => "AGREEMENT_RETIRED_POLICY_VIOLATION"
  | .retiredExpired => "AGREEMENT_RETIRED_EXPIRED"
  | .retired => "AGREEMENT_RETIRED"
  | .statusUnavailable => "RETIREMENT_STATUS_UNAVAILABLE"
  | .invalidAgreementId => "INVALID_AGREEMENT_ID"

def ofName? : String → Option DenyCode
  | "AGREEMENT_RETIRED_MANUAL" => some .retiredManual
  | "AGREEMENT_RETIRED_POLICY_VIOLATION" => some .retiredPolicyViolation
  | "AGREEMENT_RETIRED_EXPIRED" => some .retiredExpired
  | "AGREEMENT_RETIRED" => some .retired
  | "RETIREMENT_STATUS_UNAVAILABLE" => some .statusUnavailable
  | "INVALID_AGREEMENT_ID" => some .invalidAgreementId
  | _ => none

def ofReason : ReasonCode → DenyCode
  | .manual => .retiredManual
  | .policyViolation _ => .retiredPolicyViolation
  | .expired => .retiredExpired
  | .other => .retired

def toJson (c : DenyCode) : Json := .text c.name

def ofJson? (j : Json) : Option DenyCode := do ofName? (← j.constant?)

end DenyCode

namespace Decision

def isAllowed : Decision → Bool
  | .allow => true
  | .deny _ _ => false

def code? : Decision → Option DenyCode
  | .allow => none
  | .deny code _ => some code

def ofRetirement (r : Retirement) : Decision :=
  .deny (.ofReason r.reasonCode)
    ("Contract Agreement with ID=" ++ r.agreementId ++ " has been retired")

def invalidId : Decision := .deny .invalidAgreementId "agreement id MUST be non-empty"

def unavailable (agreementId : String) : Decision :=
  .deny .statusUnavailable
    ("retirement status of Contract Agreement with ID=" ++ agreementId ++ " is unavailable")

def toJson : Decision → Json
  | .allow => .ofFields [("decision", .text "allow")]
  | .deny code message =>
    .ofFields [("decision", .text "deny"), ("code", code.toJson), ("message", .text message)]

def ofJson? (j : Json) : Option Decision := do
  guard (j.isHeld 0)
  let (tag, rest) ← j.tagged? "decision"
  match ← tag.text? with
  | "allow" => if rest.hasNoItems then some .allow else none
  | "deny" =>
    let [code, message] ← rest.slots? [["code"], ["message"]] | none
    return .deny (← DenyCode.ofName? (← code.required Json.heldConstant?))
      (← message.required Json.text?)
  | _ => none

end Decision

def Decision.ofLookup (agreementId : String) (found : Except Failure (Option Retirement)) :
    Decision :=
  if Text.isBlankText agreementId then .invalidId
  else
    match found with
    | .ok none => .allow
    | .ok (some r) => .ofRetirement r
    | .error _ => .unavailable agreementId

def Service.check (s : Service) (agreementId : String) : Decision :=
  .ofLookup agreementId (s.get agreementId)

end RetirementLedger

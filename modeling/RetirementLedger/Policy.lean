import RetirementLedger.Instant.Text
import RetirementLedger.Json.Fields

namespace RetirementLedger

inductive Bound where
  | validFrom
  | validUntil
  deriving Repr, DecidableEq

inductive Violation where
  | notYetValid
  | expired
  | malformedBound (bound : Bound) (raw : String)
  | missingBounds
  | invertedInterval
  deriving Repr, DecidableEq

inductive Verdict where
  | satisfied
  | violated (violation : Violation)
  deriving Repr, DecidableEq

structure Constraint where
  constraintId : String
  validFrom : Option String
  validUntil : Option String
  deriving Repr, DecidableEq, Inhabited

namespace Violation

def isInputError : Violation → Bool
  | .malformedBound _ _ | .missingBounds | .invertedInterval => true
  | _ => false

end Violation

namespace Verdict

def isSatisfied : Verdict → Bool
  | .satisfied => true
  | .violated _ => false

def violation? : Verdict → Option Violation
  | .satisfied => none
  | .violated violation => some violation

end Verdict

namespace Policy

def judgeInterval (now : Instant) (validFrom validUntil : Option Instant) : Verdict :=
  match validFrom, validUntil with
  | none, none => .violated .missingBounds
  | some first, some last =>
    if last.nanos ≤ first.nanos then .violated .invertedInterval
    else if now.nanos < first.nanos then .violated .notYetValid
    else if last.nanos ≤ now.nanos then .violated .expired
    else .satisfied
  | some first, none => if now.nanos < first.nanos then .violated .notYetValid else .satisfied
  | none, some last => if last.nanos ≤ now.nanos then .violated .expired else .satisfied

def readBound (bound : Bound) : Option String → Except Violation (Option Instant)
  | none => .ok none
  | some raw =>
    match Instant.ofText? raw with
    | some t => .ok (some t)
    | none => .error (.malformedBound bound raw)

def judge (now : Instant) (validFrom validUntil : Option String) : Verdict :=
  if validFrom.isNone && validUntil.isNone then .violated .missingBounds
  else
    match readBound .validFrom validFrom with
    | .error violation => .violated violation
    | .ok first =>
      match readBound .validUntil validUntil with
      | .error violation => .violated violation
      | .ok last => judgeInterval now first last

end Policy

namespace Constraint

def judge (c : Constraint) (now : Instant) : Verdict := Policy.judge now c.validFrom c.validUntil

def fields : List (List String) := [["constraint_id"], ["valid_from"], ["valid_until"]]

def toJson (c : Constraint) : Json :=
  .ofFields [("constraint_id", .text c.constraintId),
    ("valid_from", .ofOption .text c.validFrom), ("valid_until", .ofOption .text c.validUntil)]

def ofJson? (j : Json) : Option Constraint := do
  let [id, first, last] ← j.slots? fields | none
  return ⟨← id.required Json.text?, ← first.withDefault none (Json.nullable? Json.text?),
    ← last.withDefault none (Json.nullable? Json.text?)⟩

end Constraint

namespace Bound

def name : Bound → String
  | .validFrom => "valid_from"
  | .validUntil => "valid_until"

def ofName? : String → Option Bound
  | "valid_from" => some .validFrom
  | "valid_until" => some .validUntil
  | _ => none

def toJson (b : Bound) : Json := .text b.name

def ofJson? (j : Json) : Option Bound := do ofName? (← j.constant?)

end Bound

namespace Violation

def names : List String :=
  ["not_yet_valid", "expired", "malformed_bound", "missing_bounds", "inverted_interval"]

def toJson : Violation → Json
  | .notYetValid => .ofFields [("kind", .text "not_yet_valid")]
  | .expired => .ofFields [("kind", .text "expired")]
  | .malformedBound bound raw =>
    .ofFields [("kind", .text "malformed_bound"), ("bound", bound.toJson), ("raw", .text raw)]
  | .missingBounds => .ofFields [("kind", .text "missing_bounds")]
  | .invertedInterval => .ofFields [("kind", .text "inverted_interval")]

def ofTagged? (name : String) (rest : Json) : Option Violation :=
  match name with
  | "not_yet_valid" => if rest.hasNoItems then some .notYetValid else none
  | "expired" => if rest.hasNoItems then some .expired else none
  | "malformed_bound" => do
    let [bound, raw] ← rest.slots? [["bound"], ["raw"]] | none
    return .malformedBound (← Bound.ofName? (← bound.required Json.heldConstant?))
      (← raw.required Json.text?)
  | "missing_bounds" => if rest.hasNoItems then some .missingBounds else none
  | "inverted_interval" => if rest.hasNoItems then some .invertedInterval else none
  | _ => none

def ofJson? (depth : Nat) (j : Json) : Option Violation := do
  guard (j.isHeld depth)
  let (tag, rest) ← j.tagged? "kind"
  ofTagged? (← tag.text?) rest

def ofHeld? (j : Json) : Option Violation := do
  let (tag, rest) ← j.tagged? "kind"
  ofTagged? (← Json.heldTagName? names tag) rest

end Violation

namespace Verdict

def toJson : Verdict → Json
  | .satisfied => .ofFields [("outcome", .text "satisfied")]
  | .violated violation =>
    .ofFields [("outcome", .text "violated"), ("violation", violation.toJson)]

def ofJson? (j : Json) : Option Verdict := do
  guard (j.isHeld 0)
  let (tag, rest) ← j.tagged? "outcome"
  match ← tag.text? with
  | "satisfied" => if rest.hasNoItems then some .satisfied else none
  | "violated" =>
    let [violation] ← rest.slots? [["violation"]] | none
    return .violated (← violation.required Violation.ofHeld?)
  | _ => none

end Verdict

end RetirementLedger

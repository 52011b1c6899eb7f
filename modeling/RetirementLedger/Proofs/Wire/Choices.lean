import RetirementLedger.Enforcement
import RetirementLedger.Policy
import RetirementLedger.Proofs.Json.Choices
import RetirementLedger.Proofs.Wire

namespace RetirementLedger
open Json

theorem Bound.ofName?_name (b : Bound) : ofName? b.name = some b := by
  cases b <;> rfl

theorem DenyCode.ofName?_name (c : DenyCode) : ofName? c.name = some c := by
  cases c <;> rfl

theorem ReasonCode.ofJson?_toJson (c : ReasonCode) : ofJson? c.toJson = some c := by
  cases c with
  | policyViolation id =>
      have held : isHeld 0 (toJson (.policyViolation id)) = true :=
        isHeld_ofFields (by decide) (by simp [isHeld_text])
      have tagged : tagged? "kind" (toJson (.policyViolation id)) =
          some (.text "policy_violation", ofFields [("constraint_id", .text id)]) :=
        tagged?_ofFields _ (by simp)
      have slots : slots? [["constraint_id"]] (ofFields [("constraint_id", .text id)]) =
          some [.given (.text id)] := slots?_ofFields [("constraint_id", _)] (by simp)
      rw [ofJson?, guard_eq held]
      simp [tagged, slots, Slot.required]
  | _ => rfl

theorem DenyCode.heldConstant?_toJson (c : DenyCode) : heldConstant? c.toJson = some c.name := rfl

theorem Bound.heldConstant?_toJson (b : Bound) : heldConstant? b.toJson = some b.name := rfl

theorem Decision.ofJson?_toJson (d : Decision) : ofJson? d.toJson = some d := by
  cases d with
  | allow => rfl
  | deny code message =>
      have held : isHeld 0 (toJson (.deny code message)) = true :=
        isHeld_ofFields (by decide) (by simp [isHeld_text, DenyCode.toJson])
      have tagged : tagged? "decision" (toJson (.deny code message)) =
          some (.text "deny", ofFields [("code", code.toJson), ("message", .text message)]) :=
        tagged?_ofFields _ (by simp)
      have slots : slots? [["code"], ["message"]]
          (ofFields [("code", code.toJson), ("message", .text message)]) =
            some [.given code.toJson, .given (.text message)] :=
        slots?_ofFields [("code", _), ("message", _)] (by simp)
      rw [ofJson?, guard_eq held]
      simp [tagged, slots, Slot.required, code.heldConstant?_toJson,
        code.ofName?_name]

namespace Violation

theorem isHeld_toJson {d : Nat} (shallow : d < depthLimit) (v : Violation) :
    isHeld d v.toJson = true := by
  cases v <;> exact isHeld_ofFields shallow (by simp [isHeld_text, Bound.toJson])

theorem exists_tagged? (v : Violation) :
    ∃ name rest, v.toJson.tagged? "kind" = some (.text name, rest) ∧ ofTagged? name rest = some v := by
  cases v with
  | malformedBound bound raw =>
      have slots : slots? [["bound"], ["raw"]] (ofFields [("bound", bound.toJson), ("raw", .text raw)]) =
          some [.given bound.toJson, .given (.text raw)] :=
        slots?_ofFields [("bound", _), ("raw", _)] (by simp)
      refine ⟨_, _, tagged?_ofFields _ (by simp), ?_⟩
      simp [ofTagged?, slots, Slot.required, bound.heldConstant?_toJson, bound.ofName?_name]
  | _ => exact ⟨_, _, tagged?_ofFields _ (by simp), rfl⟩

theorem ofJson?_toJson {depth : Nat} (shallow : depth < depthLimit) (v : Violation) :
    ofJson? depth v.toJson = some v := by
  obtain ⟨name, rest, tagged, read⟩ := v.exists_tagged?
  rw [ofJson?, guard_eq (isHeld_toJson shallow v)]
  simp [tagged, read]

theorem ofHeld?_toJson (v : Violation) : ofHeld? v.toJson = some v := by
  obtain ⟨name, rest, tagged, read⟩ := v.exists_tagged?
  have named : heldTagName? names (.text name) = some name := rfl
  simp [ofHeld?, tagged, named, read]

end Violation

theorem Verdict.ofJson?_toJson (v : Verdict) : ofJson? v.toJson = some v := by
  cases v with
  | satisfied => rfl
  | violated violation =>
      have held : isHeld 0 (toJson (.violated violation)) = true :=
        isHeld_ofFields (by decide)
          (by simp [isHeld_text, Violation.isHeld_toJson (d := 1) (by decide)])
      have tagged : tagged? "outcome" (toJson (.violated violation)) =
          some (.text "violated", ofFields [("violation", violation.toJson)]) :=
        tagged?_ofFields _ (by simp)
      have slots : slots? [["violation"]] (ofFields [("violation", violation.toJson)]) =
          some [.given violation.toJson] := slots?_ofFields [("violation", _)] (by simp)
      rw [ofJson?, guard_eq held]
      simp [tagged, slots, Slot.required, violation.ofHeld?_toJson]

end RetirementLedger

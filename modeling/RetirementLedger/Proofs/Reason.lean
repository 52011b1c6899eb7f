import RetirementLedger.Enforcement

namespace RetirementLedger

namespace Text

theorem trimEnd_append {cs : List Char} {c : Char} (shown : isBlank c = false) (rest : List Char) :
    trimEnd (cs ++ c :: rest) = cs ++ c :: trimEnd rest := by
  unfold trimEnd
  rw [← List.singleton_append, List.reverse_append, List.reverse_append, List.append_assoc]
  rw [List.dropWhile_append]
  split
  · next blank => simp [List.isEmpty_iff.mp blank, shown]
  · simp

end Text

namespace ReasonCode

theorem afterMark?_append (mark rest : List Char) : afterMark? mark (mark ++ rest) = some rest := by
  induction mark with
  | nil => rfl
  | cons m mark ih => simpa [afterMark?] using ih

theorem ofReason_violationReason (constraintId : String) :
    ofReason (violationReason constraintId) =
      .policyViolation (String.ofList (Text.trimEnd constraintId.toList)) := by
  have chars : Text.trimChars (violationReason constraintId).toList =
      violationMark.toList ++ Text.trimEnd constraintId.toList := by
    have split : violationMark.toList = "POLICY_VIOLATION".toList ++ [':'] := by decide
    have begins : Text.trimStart (violationReason constraintId).toList =
        (violationReason constraintId).toList := by
      simp [violationReason, violationMark, Text.trimStart, Text.isBlank]
    rw [Text.trimChars, begins, violationReason, String.toList_append, split, List.append_assoc,
      List.singleton_append, Text.trimEnd_append (by decide), List.append_assoc]
    rfl
  unfold ofReason
  rw [chars]
  dsimp only
  rw [afterMark?_append]

end ReasonCode

theorem Decision.code?_ofRetirement {r : Retirement} {constraintId : String}
    (reason : r.reason = ReasonCode.violationReason constraintId) :
    (ofRetirement r).code? = some .retiredPolicyViolation := by
  simp [ofRetirement, code?, Retirement.reasonCode, reason, ReasonCode.ofReason_violationReason,
    DenyCode.ofReason]

end RetirementLedger

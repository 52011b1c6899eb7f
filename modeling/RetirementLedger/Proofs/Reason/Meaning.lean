import RetirementLedger.Proofs.Reason
import RetirementLedger.Proofs.Text.Blank

namespace RetirementLedger.ReasonCode
open Text

inductive Spells : String → ReasonCode → Prop where
  | manual : Spells manualReason .manual
  | expired : Spells expiredReason .expired
  | violation (constraintId : String) : Spells (violationMark ++ constraintId) (.policyViolation constraintId)
  | other {core : String} (notManual : core ≠ manualReason) (notExpired : core ≠ expiredReason)
    (unmarked : ∀ constraintId, core ≠ violationMark ++ constraintId) : Spells core .other

theorem afterMark?_eq_some_iff {mark cs rest : List Char} :
    afterMark? mark cs = some rest ↔ cs = mark ++ rest := by
  refine ⟨fun found => ?_, fun split => split ▸ afterMark?_append mark rest⟩
  induction mark generalizing cs with
  | nil => exact Option.some.inj found
  | cons m mark ih =>
      cases cs with
      | nil => cases found
      | cons c cs =>
          rw [afterMark?] at found
          split at found
          · next same => rw [same, ih found, List.cons_append]
          · cases found

theorem afterMark?_toList {mark core : String} {rest : List Char} :
    afterMark? mark.toList core.toList = some rest ↔ core = mark ++ String.ofList rest := by
  rw [afterMark?_eq_some_iff, ← String.toList_inj, String.toList_append, String.toList_ofList]

theorem ofReason_eq_iff {reason core : String} {code : ReasonCode} (trimmed : IsTrimmed reason core) :
    ofReason reason = code ↔ Spells core code := by
  have chars : trimChars reason.toList = core.toList := by
    rw [← trim_eq_iff.mpr trimmed, trim, String.toList_ofList]
  unfold ofReason
  rw [chars]
  dsimp only
  constructor
  · rintro rfl
    cases marked : afterMark? violationMark.toList core.toList with
    | some id =>
        rw [afterMark?_toList.mp marked]
        exact .violation _
    | none =>
        have unmarked (constraintId : String) : core ≠ violationMark ++ constraintId := by
          rintro rfl
          rw [String.toList_append, afterMark?_append] at marked
          cases marked
        dsimp only
        split
        · next manual =>
            rw [String.toList_inj.mp manual]
            exact .manual
        · next notManual =>
            split
            · next expired =>
                rw [String.toList_inj.mp expired]
                exact .expired
            · next notExpired =>
                exact .other (mt (congrArg String.toList) notManual) (mt (congrArg String.toList) notExpired)
                  unmarked
  · intro spelled
    cases spelled with
    | manual => decide
    | expired => decide
    | violation constraintId =>
        rw [String.toList_append, afterMark?_append]
        dsimp only
        rw [String.ofList_toList]
    | other notManual notExpired unmarked =>
        have missing : afterMark? violationMark.toList core.toList = none :=
          Option.eq_none_iff_forall_ne_some.mpr fun id marked =>
            unmarked (String.ofList id) (afterMark?_toList.mp marked)
        rw [missing]
        dsimp only
        rw [if_neg (mt String.toList_inj.mp notManual), if_neg (mt String.toList_inj.mp notExpired)]

theorem ofReason_padded {before after : String} (blank : isBlankText before = true)
    (blank' : isBlankText after = true) (reason : String) :
    ofReason (before ++ reason ++ after) = ofReason reason := by
  have chars : trimChars (before ++ reason ++ after).toList = trimChars reason.toList := by
    rw [String.toList_append, String.toList_append, List.append_assoc]
    exact trimChars_surrounded (isBlankText_iff.mp blank) (isBlankText_iff.mp blank') reason.toList
  unfold ofReason
  rw [chars]

/-- What the constraint's id loses is the white space at its end. -/
theorem exists_ofReason_violationReason (constraintId : String) :
    ∃ id blanks, ofReason (violationReason constraintId) = .policyViolation id ∧
      isBlankText blanks = true ∧ constraintId = id ++ blanks ∧
      ∀ c ∈ id.toList.getLast?, isBlank c = false := by
  obtain ⟨blanks, blank, split, last⟩ := exists_trimEnd constraintId.toList
  refine ⟨String.ofList (trimEnd constraintId.toList), String.ofList blanks,
    ofReason_violationReason constraintId, ?_, ?_, ?_⟩
  · rwa [isBlankText_iff, String.toList_ofList]
  · rw [← String.toList_inj, String.toList_append, String.toList_ofList, String.toList_ofList, ← split]
  · rwa [String.toList_ofList]

theorem ofReason_violationReason_eq_iff {constraintId : String} :
    ofReason (violationReason constraintId) = .policyViolation constraintId ↔
      ∀ c ∈ constraintId.toList.getLast?, isBlank c = false := by
  rw [ofReason_violationReason, ReasonCode.policyViolation.injEq, ← String.toList_inj, String.toList_ofList]
  refine ⟨fun same c last => ?_, trimEnd_eq⟩
  obtain ⟨-, -, -, shown⟩ := exists_trimEnd constraintId.toList
  exact shown c (by rwa [same])

/-- White space at the end of a constraint's id cannot be told from white space after the reason. -/
theorem meanings_exact (reason : String) :
    (∀ constraintId, ∃ id blanks, ofReason (violationReason constraintId) = .policyViolation id ∧
      isBlankText blanks = true ∧ constraintId = id ++ blanks ∧
        ∀ c ∈ id.toList.getLast?, isBlank c = false) ∧
    (∀ constraintId, ofReason (violationReason constraintId) = .policyViolation constraintId ↔
      ∀ c ∈ constraintId.toList.getLast?, isBlank c = false) ∧
    (∀ code, ofReason reason = code ↔ ∃ core, IsTrimmed reason core ∧ Spells core code) ∧
    ∀ before after, isBlankText before = true → isBlankText after = true →
      ofReason (before ++ reason ++ after) = ofReason reason ∧
        ∀ r : Retirement, r.reason = before ++ reason ++ after →
          (Decision.ofRetirement r).code? = some (.ofReason (ofReason reason)) := by
  refine ⟨exists_ofReason_violationReason, fun constraintId => ofReason_violationReason_eq_iff,
    fun code => ⟨fun read => ?_, fun means => ?_⟩, fun before after blank blank' => ?_⟩
  · have trimmed : IsTrimmed reason (trim reason) := trim_eq_iff.mp rfl
    exact ⟨trim reason, trimmed, (ofReason_eq_iff trimmed).mp read⟩
  · obtain ⟨core, trimmed, spelled⟩ := means
    exact (ofReason_eq_iff trimmed).mpr spelled
  · have same := ofReason_padded blank blank' reason
    refine ⟨same, fun r given => ?_⟩
    rw [Decision.ofRetirement, Decision.code?, Retirement.reasonCode, given, same]

theorem meanings_exact_padded :
    let r : Retirement := ⟨"a-1", "\t\u3000POLICY_VIOLATION: c 7\u00a0", .epoch, "alice"⟩
    r.reasonCode = .policyViolation " c 7" ∧
      (Decision.ofRetirement r).code? = some .retiredPolicyViolation := by
  intro r
  obtain ⟨-, named, -, padded⟩ := meanings_exact "POLICY_VIOLATION: c 7"
  obtain ⟨same, denied⟩ := padded "\t\u3000" "\u00a0" (by decide) (by decide)
  have last : " c 7".toList.getLast? = some '7' := by decide
  have read : ofReason "POLICY_VIOLATION: c 7" = .policyViolation " c 7" := by
    refine (named " c 7").mpr fun c found => ?_
    rw [Option.mem_def.mp found] at last
    cases last
    decide
  refine ⟨?_, ?_⟩
  · exact same.trans read
  · rw [denied r (by decide), read]
    rfl

theorem constraintId_cut_at_end :
    ¬ ∀ constraintId, ofReason (violationReason constraintId) = .policyViolation constraintId := by
  intro kept
  have last : "c-7 ".toList.getLast? = some ' ' := by decide
  have shown := ofReason_violationReason_eq_iff.mp (kept "c-7 ") ' ' last
  exact absurd shown (by decide)

end RetirementLedger.ReasonCode

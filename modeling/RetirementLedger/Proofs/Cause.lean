import RetirementLedger.Proofs.Permanence
import RetirementLedger.Proofs.Reason
import RetirementLedger.Proofs.System.Findings

namespace RetirementLedger.System

theorem Reachable.shows_cause {s : System} (reachable : s.Reachable) {id : String} {r : Retirement}
    (held : s.store.record? id = some r) {constraintId : String}
    (reason : r.reason = ReasonCode.violationReason constraintId)
    {found : Option Retirement} (answer : s.service.get id = .ok found) :
    found = some r ∧ (s.service.check id).code? = some .retiredPolicyViolation := by
  have sound := reachable.recorded.sound
  have same : found = some r := by
    rw [Service.get_eq sound, held] at answer
    cases fault : s.service.store.faults.get id with
    | none => simpa [fault] using answer.symm
    | some f => simp [fault] at answer
  have shown : Text.isBlankText id = false := by
    obtain ⟨filed, valid⟩ := sound.filed id r held
    rw [← filed]
    exact Retirement.not_blank_of_validate valid
  refine ⟨same, ?_⟩
  rw [Service.check_eq shown, answer, same]
  exact Decision.code?_ofRetirement reason

theorem retired_for_cause {start : System} (initial : start.IsInitial) (before : List Act) :
    let s := start.run before
    (∀ act id r, s.store.record? id = some r → (s.step act).store.record? id = some r) ∧
      (∀ act, (∀ other, act ≠ .traffic other) →
        (s.step act).store = s.store ∧ (act ≠ .proceed → (s.step act).calls = s.calls)) ∧
      (s.calls.length < (s.step .proceed).calls.length →
        ∃ (finding : Finding) (p : ScanProgress) (rest agreements : List Agreement),
          s.scan = some (.visiting p (finding.agreement :: rest)) ∧ p.stopped = false ∧
            start.listed before = some agreements ∧ finding.agreement ∈ agreements ∧
            finding.IsFirstViolation ∧ finding.instant = s.service.clock ∧
            (s.step .proceed).monitor.watch.find? finding.agreement.agreementId =
              some finding.entry ∧
            (s.step .proceed).calls = s.calls ++ [finding.call] ∧
            ∀ after id r,
              let t := (s.step .proceed).run after
              let u := t.step (.traffic (.advance s.calls.length))
              t.store.record? id = none → u.store.record? id = some r →
                (∃ earlier later, after = earlier ++ .traffic (.advance s.calls.length) :: later ∧
                  let reading := (s.step .proceed).run earlier
                  reading.calls[s.calls.length]? = some finding.call ∧
                    finding.IsRecordedAs r reading.service.clock ∧
                    (KeepsClock earlier → reading.service.clock = finding.instant)) ∧
                  r.agreementId = id ∧
                  ∀ later found, (u.run later).service.get id = .ok found →
                    found = some r ∧
                      ((u.run later).service.check id).code? = some .retiredPolicyViolation) := by
  have reachable := initial.reachable.run before
  refine ⟨fun act id r held => reachable.keeps [act] held, fun act own => ?_, fun asked => ?_⟩
  · exact ⟨(transition _ act).store own, (transition _ act).calls own⟩
  · obtain ⟨finding, p, rest, phase, going, violated, instant, entry, calls⟩ :=
      (transition _ .proceed).exists_finding asked
    obtain ⟨visited, listed, -⟩ := initial.traverses before phase
    refine ⟨finding, p, rest, _, phase, going, listed, by simp, violated, instant, entry, calls, ?_⟩
    intro after id r t u free held
    have reachable' : t.Reachable := (reachable.run [.proceed]).run after
    have begun : ((start.run before).step .proceed).calls[(start.run before).calls.length]? =
        some finding.call := by
      rw [calls, List.getElem?_concat_length]
    obtain ⟨made, checked, rfl, kept⟩ :=
      Traffic.checked_of_added reachable'.recorded.sound free held
    -- The clock may have moved on from the evaluation to this reading, and from there to the insertion.
    obtain ⟨earlier, later, split, read, rfl⟩ := exists_reading begun checked
    have recorded := Finding.isRecordedAs_of_kept kept
    have unmoved (keeping : KeepsClock earlier) :
        (((start.run before).step .proceed).run earlier).service.clock = finding.instant := by
      rw [run_clock keeping, step_clock (by simp), instant]
    refine ⟨⟨earlier, later, split, read, recorded, unmoved⟩, recorded.agreementId,
      fun later found answer => ?_⟩
    have reachable'' := reachable'.run [.traffic (.advance (start.run before).calls.length)]
    exact (reachable''.run later).shows_cause (reachable''.keeps later held) recorded.reason answer

theorem retired_for_cause_late :
    let start := setUp (.memory .empty) .epoch
    let a : Agreement :=
      ⟨"a-1", .unknown, [⟨"c-1", some "1969-01-01T00:00:00Z", none⟩, ⟨"c-2 ", none, none⟩]⟩
    let before : List Act := [.enter, .list (.listed [a])]
    let read : Instant := ⟨5000000, 0, by decide, by decide⟩
    let after : List Act :=
      [.giveUp, .proceed, .traffic (.setClock read), .traffic (.advance 0),
        .traffic (.setClock ⟨9000000, 0, by decide, by decide⟩)]
    let record : Retirement := ⟨"a-1", "POLICY_VIOLATION:c-2 ", read, "policy-monitor"⟩
    let last := (((start.run before).step .proceed).run after).step (.traffic (.advance 0))
    start.IsInitial ∧ (start.run before).calls.length < ((start.run before).step .proceed).calls.length ∧
      last.store.record? "a-1" = some record ∧
      (∃ finding : Finding, finding.agreement = a ∧ finding.IsFirstViolation ∧ finding.instant = .epoch ∧
        finding.IsRecordedAs record read) ∧
      (last.service.check "a-1").code? = some .retiredPolicyViolation := by
  intro start a before read after record last
  have initial : start.IsInitial := isInitial_setUp (.inl rfl) .epoch
  have asked : (start.run before).calls.length < ((start.run before).step .proceed).calls.length := by
    decide
  obtain ⟨-, -, caused⟩ := retired_for_cause initial before
  obtain ⟨finding, p, rest, agreements, -, -, listed, member, violated, instant, -, -, adds⟩ := caused asked
  have same : finding.agreement = a := by
    cases listed
    exact List.mem_singleton.mp member
  have held : last.store.record? "a-1" = some record := by decide
  have readable : (last.service.get "a-1").toOption.isSome = true := by decide
  obtain ⟨⟨earlier, later, -, -, recorded, -⟩, -, denied⟩ := adds after "a-1" record (by decide) held
  have recorded : finding.IsRecordedAs record read :=
    ⟨recorded.agreementId, recorded.reason, recorded.retiredBy, rfl⟩
  refine ⟨initial, asked, held, ⟨finding, same, violated, instant, recorded⟩, ?_⟩
  cases found : last.service.get "a-1" with
  | error f => simp [found, Except.toOption] at readable
  | ok stored => exact (denied [] stored found).2

end RetirementLedger.System

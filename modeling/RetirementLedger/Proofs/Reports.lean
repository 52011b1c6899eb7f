import RetirementLedger.Proofs.System.Calls

namespace RetirementLedger.System

variable {s : System} {acts : List Act} {report : ScanReport}

theorem countP_flagged_asked (s : System) (acts : List Act) (flag : RetireCall → Bool) :
    (s.collect asked acts).countP (s.flagged flag) = 0 := by
  rw [List.countP_eq_zero]
  intro place asked
  have beyond := ((ascending_asked s acts).2 place asked).1
  rw [Traffic.flagged, List.getElem?_eq_none beyond]
  simp

variable {agreements : List Agreement}

theorem Scans.answers (scans : s.Scans acts agreements report) (reachable : s.Reachable) :
    s.Answers (Act.wholeScan acts) report.retired ∧
      (s.collect answered (Act.wholeScan acts)).Sublist (s.collect asked (Act.wholeScan acts)) := by
  obtain ⟨p, rest, closes⟩ := scans.closes reachable
  have reachable' : (s.step .enter).Reachable := reachable.run [.enter]
  obtain ⟨known, taken⟩ := callInvariant reachable' scans.begun scans.scanning _ closes.phase
  have asks : s.collect asked (Act.wholeScan acts) = (s.step .enter).collect asked acts :=
    collect_wholeScan rfl closes.unasked
  have answers : s.collect answered (Act.wholeScan acts) = (s.step .enter).collect answered acts :=
    collect_wholeScan rfl rfl
  have calls : (s.run (Act.wholeScan acts)).calls = ((s.step .enter).run acts).calls :=
    (congrArg (·.calls) (run_wholeScan s acts)).trans closes.calls
  refine ⟨⟨?_, ?_⟩, ?_⟩
  · rw [answers, calls]
    exact known.done
  · rw [answers, flagged_congr calls, ← known.retired]
    exact congrArg (·.retired) closes.counts
  · rw [answers, asks]
    exact taken

theorem Answers.announced {retired : Nat} (answers : s.Answers acts retired) :
    (s.collect answered acts).countP ((s.run acts).flagged RetireCall.hasAnnounced) = retired := by
  rw [answers.retired]
  refine List.countP_congr fun place member => ?_
  obtain ⟨reply, done⟩ := answers.done place member
  rw [Traffic.flagged, done, Traffic.flagged, done]
  rfl

theorem reports_add_up (reachable : s.Reachable) (scans : s.Scans acts agreements report) :
    let whole := Act.wholeScan acts
    let after := s.run whole
    report.violations = report.retired + report.alreadyRetired + report.failures ∧
      (report.violations ≤ report.evaluated ∧ report.evaluated ≤ report.listed ∧
        report.listed = agreements.length) ∧
      (report.cancelled = false →
        report.listed = report.evaluated + agreements.countP (·.status = .terminated) +
          (s.collect skipped whole).length) ∧
      report.retired = (s.collect (filed (s.collect answered whole)) whole).length ∧
      (s.collect answered whole = s.collect asked whole → s.Undisturbed (s.collect asked whole) whole →
        after.store.records.length = s.store.records.length + report.retired ∧
          after.service.delivered.length + after.service.auditFailures =
            s.service.delivered.length + s.service.auditFailures + report.retired) := by
  intro whole after
  obtain ⟨p, rest, closes⟩ := scans.closes reachable
  obtain ⟨answers, taken⟩ := scans.answers reachable
  have distinct : (s.collect answered whole).Nodup := (nodup_asked s whole).sublist taken
  have unflagged (flag : RetireCall → Bool) : (s.collect answered whole).countP (s.flagged flag) = 0 := by
    refine Nat.eq_zero_of_le_zero ?_
    rw [← countP_flagged_asked s whole flag]
    exact taken.countP_le
  have filed := length_collect_filed reachable distinct whole
  rw [unflagged, Nat.add_zero, ← answers.retired] at filed
  have skips : s.collect skipped whole = (s.step .enter).collect skipped acts :=
    collect_wholeScan rfl (skipped_of_noVisit closes.noVisit)
  have listing := scans.listing closes
  have listed := closes.listed
  rw [List.length_append] at listed
  obtain ⟨violations, bounded, seen⟩ := closes.balances
  refine ⟨violations, ⟨bounded, by omega, closes.listed.trans (congrArg _ listing.symm)⟩,
    fun notCancelled => ?_,
    filed.symm, fun inTime undisturbed => ?_⟩
  · have all := closes.rest_eq_nil notCancelled
    rw [all, List.length_nil] at listed
    rw [skips, listing, all, List.append_nil]
    omega
  · rw [← inTime] at undisturbed
    obtain ⟨records, notices⟩ := undisturbed.grows reachable distinct
    rw [unflagged, answers.announced, Nat.add_zero] at notices
    rw [filed] at records
    exact ⟨records, notices⟩

theorem reports_add_up_refused :
    let violating (id : String) : Agreement := ⟨id, .unknown, [⟨"c-1", none, none⟩]⟩
    let s := (setUp (.memory .empty) .epoch).run
      [.traffic (.setFaults { crash := (· == "a-2") }), .traffic (.setRefusals (· == "a-1"))]
    let agreements :=
      [violating "a-1", violating "a-2", ⟨"a-3", .terminated, []⟩, violating "a-1", ⟨"a-4", .finalized, []⟩]
    let advance (place : Nat) : Act := .traffic (.advance place)
    let acts : List Act :=
      [.list (.listed agreements), .proceed, advance 0, advance 0, advance 0, .settle, .proceed, advance 1,
        advance 1, .settle, .proceed, .proceed, .proceed]
    let report : ScanReport :=
      { startedAt := some .epoch, finishedAt := some .epoch, listed := 5, evaluated := 3, violations := 2,
        retired := 1, failures := 1 }
    let whole := Act.wholeScan acts
    let after := s.run whole
    s.Reachable ∧ s.Scans acts agreements report ∧ s.collect answered whole = s.collect asked whole ∧
      s.Undisturbed (s.collect asked whole) whole ∧ (s.collect skipped whole).length = 1 ∧
      after.store.records.length = 0 + 1 ∧
      after.service.delivered.length + after.service.auditFailures = 0 + 1 := by
  intro violating s agreements advance acts report whole after
  have reachable : s.Reachable := (isInitial_setUp (.inl rfl) .epoch).reachable.run _
  have scans : s.Scans acts agreements report := ⟨by decide, by decide, by decide, by decide⟩
  obtain ⟨-, -, counted, -, grown⟩ := reports_add_up reachable scans
  have inTime : s.collect answered whole = s.collect asked whole := by decide
  have undisturbed : s.Undisturbed (s.collect asked whole) whole := undisturbed_of_isOwn (by decide)
  obtain ⟨records, notices⟩ := grown inTime undisturbed
  have listed := counted rfl
  have terminated : agreements.countP (·.status = .terminated) = 1 := by decide
  have started : s.store.records.length = 0 ∧ s.service.delivered.length + s.service.auditFailures = 0 := by
    decide
  rw [terminated] at listed
  refine ⟨reachable, scans, inTime, undisturbed, ?_, ?_, ?_⟩
  · exact (Nat.add_left_cancel listed).symm
  · rw [started.1] at records
    with_reducible exact records
  · rw [started.2] at notices
    with_reducible exact notices

end RetirementLedger.System

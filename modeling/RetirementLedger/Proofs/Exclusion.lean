import RetirementLedger.Proofs.Scanning

namespace RetirementLedger.Scanning

theorem one_scan_at_a_time {start : Scanning} (initial : start.IsInitial) (acts : List Act) :
    let s := start.run acts
    s.underWay ≤ 1 ∧
      (0 < s.underWay →
        s.step .call =
          { s with
            monitor := { s.monitor with skippedBusy := s.monitor.skippedBusy + 1 }
            scans := s.scans ++ [⟨none, some (.ok .skippedBusy)⟩]
            outcomes := s.outcomes ++ [.ok .skippedBusy] }) ∧
      (s.underWay = 0 →
        s.step .call =
            { s with
              monitor := { s.monitor with busy := true }
              scans := s.scans ++ [⟨some (.listing s.service.clock false), none⟩] } ∧
          s.scans.length = s.monitor.cycles + s.monitor.aborted + s.monitor.skippedBusy ∧
          s.monitor.lastReport = ScanEnd.lastReport? s.outcomes ∧
          s.monitor.lastError = (ScanEnd.lastFailure? s.outcomes).map Failure.message) ∧
      (∀ place startedAt stopped listing,
        s.phaseAt place = some (.listing startedAt stopped) →
        (∀ agreements, listing ≠ .listed agreements) →
          ∃ f, listing.result s.monitor.config = .error f ∧
            s.step (.scan place (.list listing)) =
              { s with
                monitor :=
                  { s.monitor with
                    busy := false
                    aborted := s.monitor.aborted + 1
                    lastError := some f.message }
                scans := s.scans.set place ⟨none, some (.error f)⟩
                outcomes := s.outcomes ++ [.error f] }) ∧
      ∀ place step, (s.phaseAt place).isSome = true →
        (s.step (.scan place step)).phaseAt place = none →
          (s.step (.scan place step)).monitor.busy = false ∧
            (s.step (.scan place step)).underWay = 0 := by
  intro s
  obtain ⟨t, reachable, mirrors⟩ := initial.mirrored acts
  have busy : s.monitor.busy = decide (0 < s.underWay) := mirrors.busy reachable
  refine ⟨?_, fun taken => ?_, fun free => ?_, ?_, ?_⟩
  · rw [mirrors.underWay]
    cases t.scan <;> simp
  · apply step_call_of_busy
    simpa [taken] using busy
  · have tallied := reachable.countsScans.tallied
    have length := mirrors.length
    have count := mirrors.underWay
    rw [mirrors.monitor, mirrors.outcomes] at tallied
    rw [mirrors.outcomes, ← count, free] at length
    have unguarded : s.monitor.busy = false := by simpa [free] using busy
    exact ⟨step_call_of_free unguarded, length.trans tallied.count, tallied.report, tallied.error⟩
  · intro place startedAt stopped listing here unlisted
    obtain ⟨f, failed⟩ : ∃ f, listing.result s.monitor.config = .error f := by
      cases listing with
      | listed agreements => exact absurd rfl (unlisted agreements)
      | failed f => exact ⟨_, rfl⟩
      | crashed => exact ⟨_, rfl⟩
      | hangs => exact ⟨_, rfl⟩
    exact ⟨f, failed, step_list_of_failed here failed⟩
  · intro place step underWay ended
    obtain ⟨phase, here⟩ := Option.isSome_iff_exists.mp underWay
    have idle := mirrors.underWay_of_over here ended
    have after := (mirrors.scan_step here step).busy (reachable.run [step.act])
    exact ⟨by simpa [idle] using after, idle⟩

theorem one_scan_at_a_time_turned_away :
    let start := setUp (.memory .empty) .epoch
    let first := start.run [.call]
    let second := start.run [.call, .call]
    let after := second.step (.scan 0 (.list .hangs))
    start.IsInitial ∧ 0 < first.underWay ∧ second.outcomes = [.ok .skippedBusy] ∧
      second.monitor.skippedBusy = 1 ∧ after.monitor.aborted = 1 ∧ after.monitor.busy = false ∧
      after.scans.length = after.monitor.cycles + after.monitor.aborted + after.monitor.skippedBusy := by
  intro start first second after
  have initial : start.IsInitial := isInitial_setUp (.inl rfl) .epoch
  have taken : 0 < first.underWay := by decide
  obtain ⟨-, away, -⟩ := one_scan_at_a_time initial [.call]
  have away := away taken
  obtain ⟨-, -, -, failing, ended⟩ := one_scan_at_a_time initial [.call, .call]
  obtain ⟨f, -, aborted⟩ := failing 0 .epoch false .hangs rfl (by simp)
  obtain ⟨free, idle⟩ := ended 0 (.list .hangs) rfl rfl
  obtain ⟨-, -, balance, -, -⟩ := one_scan_at_a_time initial [.call, .call, .scan 0 (.list .hangs)]
  refine ⟨initial, taken, congrArg Scanning.outcomes away, ?_, ?_, free, (balance idle).2.1⟩
  · exact congrArg (·.monitor.skippedBusy) away
  · exact congrArg (·.monitor.aborted) aborted

end RetirementLedger.Scanning

import RetirementLedger.Proofs.Monitor.Visits
import RetirementLedger.Proofs.Permanence
import RetirementLedger.Proofs.System.Watch
import RetirementLedger.Proofs.System.Whole

namespace RetirementLedger

namespace System

variable {s : System}

def startScan (s : System) (agreements : List Agreement) (signal : StopSignal) : Scan :=
  .start s.monitor s.service agreements.length signal.early

theorem Reachable.faithful (reachable : s.Reachable) (agreements : List Agreement)
    (signal : StopSignal) : (s.startScan agreements signal).Faithful :=
  ⟨reachable.recorded.sound, reachable.watched.retired⟩

theorem ScansAtOnce.isSome_later {l : Listing} {signal : StopSignal} {acts : List Act}
    (scanned : s.ScansAtOnce l signal acts) (reachable : s.Reachable) {id : String}
    (held : ((s.monitor.scan s.service l signal).service.holdings.record? id).isSome = true)
    (later : List Act) : (((s.run acts).run later).store.record? id).isSome = true := by
  obtain ⟨r, held⟩ := Option.isSome_iff_exists.mp held
  rw [← scanned.service] at held
  exact Option.isSome_iff_exists.mpr ⟨r, (reachable.run acts).keeps later held⟩

theorem no_violation_missed (reachable : s.Reachable) (agreements : List Agreement)
    (signal : StopSignal) {report : ScanReport}
    (completed : (s.monitor.scan s.service (.listed agreements) signal).outcome =
      .ok (.completed report))
    (whole : report.cancelled = false) :
    let visits := (s.startScan agreements signal).visits signal.during 0 agreements
    let after := (s.monitor.scan s.service (.listed agreements) signal).service.holdings
    visits.map (·.1) = agreements ∧
      report.failures = visits.countP Scan.isFailure ∧
      (∀ (i : Nat) (a : Agreement), agreements[i]? = some a → a.status.isMonitored = true →
        a.IsViolated s.service.clock →
          (after.record? a.agreementId).isSome = true ∨
            ∃ f, visits[i]? = some (a, some (.error f))) ∧
      ∃ acts, s.ScansAtOnce (.listed agreements) signal acts ∧ ∀ later id,
        (after.record? id).isSome = true → (((s.run acts).run later).store.record? id).isSome = true := by
  obtain ⟨service, failures, cancelled⟩ := Monitor.scan_completed s.service completed
  have listed : ((s.startScan agreements signal).visits signal.during 0 agreements).map (·.1) =
      agreements :=
    Scan.visits_whole signal.during 0 agreements (cancelled.symm.trans whole)
  refine ⟨listed, ?_, fun i a here monitored violated => ?_, ?_⟩
  · have counted := @Scan.visitAll_failures (s.startScan agreements signal) signal.during 0
      agreements
    rw [failures]
    exact counted.trans (Nat.zero_add _)
  · obtain ⟨⟨b, attempt⟩, visit, rfl⟩ : ∃ visit,
        ((s.startScan agreements signal).visits signal.during 0 agreements)[i]? = some visit ∧
          visit.1 = a := by
      rw [← listed, List.getElem?_map] at here
      exact Option.map_eq_some_iff.mp here
    rw [service]
    rcases Scan.visitAll_covers signal.during (reachable.faithful agreements signal) 0 agreements
      visit monitored violated with held | ⟨f, rfl⟩
    · exact .inl held
    · exact .inr ⟨f, visit⟩
  · obtain ⟨acts, scanned⟩ := s.exists_scansAtOnce (.listed agreements) signal
    exact ⟨acts, scanned, fun later id held => scanned.isSome_later reachable held later⟩

theorem no_violation_missed_crash :
    let s := (setUp (.memory .empty) .epoch).run
      [.traffic (.setFaults { crash := (· == "a-1") })]
    let agreements : List Agreement :=
      [⟨"a-1", .finalized, [⟨"c-1", none, none⟩]⟩, ⟨"a-2", .unknown, [⟨"c-2", none, none⟩]⟩]
    let result := s.monitor.scan s.service (.listed agreements) {}
    s.Reachable ∧ ∃ report, result.outcome = .ok (.completed report) ∧ report.cancelled = false ∧
      report.failures = ((s.startScan agreements {}).visits (fun _ => false) 0 agreements).countP
        Scan.isFailure ∧
      (result.service.holdings.record? "a-2").isSome = true := by
  intro s agreements result
  have reachable : s.Reachable := (isInitial_setUp (.inl rfl) .epoch).reachable.run _
  have completed : ∃ report, result.outcome = .ok (.completed report) ∧
      report.cancelled = false := by
    exact ⟨_, rfl, by decide⟩
  obtain ⟨report, completed, whole⟩ := completed
  obtain ⟨-, failures, covered, -⟩ := no_violation_missed reachable agreements {} completed whole
  refine ⟨reachable, report, completed, whole, failures, ?_⟩
  rcases covered 1 _ rfl rfl ⟨_, .head _, by decide⟩ with held | ⟨f, failed⟩
  · exact held
  · have fine : ((s.startScan agreements {}).visits (fun _ => false) 0 agreements)[1]?.map
        Scan.isFailure = some false := by decide
    change ((s.startScan agreements {}).visits (fun _ => false) 0 agreements)[1]? = _ at failed
    rw [failed] at fine
    cases fine

end System

end RetirementLedger

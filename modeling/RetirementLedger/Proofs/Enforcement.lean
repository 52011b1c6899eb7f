import RetirementLedger.Proofs.Compliance
import RetirementLedger.Proofs.Monitor.Effect

namespace RetirementLedger

theorem Service.check_denies {s : Service} (sound : s.holdings.Sound) {id : String}
    (held : Text.isBlankText id = true ∨ (s.holdings.record? id).isSome = true) :
    (s.check id).isAllowed = false := by
  cases shown : Text.isBlankText id with
  | true => simp [check, Decision.ofLookup, Decision.invalidId, Decision.isAllowed, shown]
  | false =>
      obtain ⟨r, known⟩ := Option.isSome_iff_exists.mp (held.resolve_left (by simp [shown]))
      rw [check_eq shown, get_eq sound, known]
      cases s.store.faults.get id <;> rfl

theorem Service.check_denies_iff {s : Service} (sound : s.holdings.Sound)
    (calm : s.store.faults.IsCalm) (id : String) :
    (s.check id).isAllowed = false ↔
      Text.isBlankText id = true ∨ (s.holdings.record? id).isSome = true := by
  refine ⟨fun denied => ?_, check_denies sound⟩
  cases shown : Text.isBlankText id with
  | true => exact .inl rfl
  | false =>
      rw [check_eq shown, get_calm sound calm] at denied
      cases known : s.holdings.record? id with
      | none => simp [known, Decision.isAllowed] at denied
      | some r => exact .inr rfl

namespace System

variable {s : System}

theorem denied_after_scan_iff (reachable : s.Reachable) (calm : s.service.store.faults.IsCalm)
    (agreements : List Agreement) (signal : StopSignal) {report : ScanReport}
    (completed : (s.monitor.scan s.service (.listed agreements) signal).outcome =
      .ok (.completed report))
    (whole : report.cancelled = false) {a : Agreement} (listed : a ∈ agreements)
    (monitored : a.status.isMonitored = true) (violated : a.IsViolated s.service.clock) :
    let after := (s.monitor.scan s.service (.listed agreements) signal).service
    ((after.check a.agreementId).isAllowed = false ↔
      Text.isBlankText a.agreementId = true ∨ (s.store.record? a.agreementId).isSome = true ∨
        s.store.CanFile a.agreementId s.service.clock) ∧
      ∃ acts, s.ScansAtOnce (.listed agreements) signal acts ∧
        ((after.check a.agreementId).isAllowed = false →
          ∀ later, (((s.run acts).run later).service.check a.agreementId).isAllowed = false) := by
  obtain ⟨service, -, cancelled⟩ := Monitor.scan_completed s.service completed
  have faithful := reachable.faithful agreements signal
  have kept : Service.Kept s.service
      ((s.startScan agreements signal).visitAll signal.during 0 agreements).service :=
    Scan.visitAll_kept signal.during faithful 0 agreements
  have effect := Scan.visitAll_isSome_iff faithful calm signal.during 0 agreements
    (cancelled.symm.trans whole) a.agreementId
  have condemned : ∃ b ∈ agreements, b.agreementId = a.agreementId ∧
      b.status.isMonitored = true ∧ b.IsViolated s.service.clock :=
    ⟨a, listed, rfl, monitored, violated⟩
  dsimp only
  rw [service]
  have denies := Service.check_denies_iff kept.sound (kept.faults ▸ calm) a.agreementId
  constructor
  · refine denies.trans (or_congr_right (effect.trans (or_congr_right ?_)))
    exact and_iff_left condemned
  · obtain ⟨acts, scanned⟩ := s.exists_scansAtOnce (.listed agreements) signal
    refine ⟨acts, scanned, fun denied later => ?_⟩
    have sound := ((reachable.run acts).run later).recorded.sound
    refine Service.check_denies sound ((denies.mp denied).imp_right fun held => ?_)
    exact scanned.isSome_later reachable (service ▸ held) later

theorem denied_after_scan_unpadded :
    let s := setUp (.database .fresh) .epoch
    let agreements : List Agreement := [⟨"a-1", .finalized, [⟨"c-1", none, none⟩]⟩]
    let result := s.monitor.scan s.service (.listed agreements) {}
    s.Reachable ∧ s.service.store.faults.IsCalm ∧
      (∃ report, result.outcome = .ok (.completed report) ∧ report.cancelled = false) ∧
      (result.service.check "a-1").isAllowed = false := by
  intro s agreements result
  have reachable : s.Reachable := (isInitial_setUp (.inr rfl) .epoch).reachable
  have completed : ∃ report, result.outcome = .ok (.completed report) ∧
      report.cancelled = false := ⟨_, rfl, by decide⟩
  obtain ⟨report, completed, whole⟩ := completed
  have denied := denied_after_scan_iff reachable FaultPlan.isCalm_none agreements {} completed whole
    (.head _) rfl ⟨_, .head _, by decide⟩
  refine ⟨reachable, FaultPlan.isCalm_none, ⟨report, completed, whole⟩, denied.1.mpr ?_⟩
  exact .inr (.inr ⟨by decide, by decide, fun _ => by decide, fun _ => by decide⟩)

theorem padded_agreement_stays_allowed :
    ¬ ∀ s : System, s.Reachable → s.service.store.faults.IsCalm →
      ∀ (agreements : List Agreement) (signal : StopSignal) (report : ScanReport),
        (s.monitor.scan s.service (.listed agreements) signal).outcome = .ok (.completed report) →
        report.cancelled = false →
        ∀ a ∈ agreements, a.status.isMonitored = true → a.IsViolated s.service.clock →
          ((s.monitor.scan s.service (.listed agreements) signal).service.check
            a.agreementId).isAllowed = false := by
  intro denied
  have reachable : (setUp (.memory .empty) .epoch).Reachable :=
    (isInitial_setUp (.inl rfl) .epoch).reachable
  have allowed := denied _ reachable FaultPlan.isCalm_none
    [⟨" a-1", .finalized, [⟨"c-1", none, none⟩]⟩] {} _ rfl (by decide) _ (.head _) rfl
    ⟨_, .head _, by decide⟩
  revert allowed
  decide

end System

end RetirementLedger

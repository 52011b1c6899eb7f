import RetirementLedger.Proofs.Monitor.Report

namespace RetirementLedger

namespace WatchTable

inductive Settled (w : WatchTable) (now : Instant) (a : Agreement) : Prop
  | gone (terminated : a.status = .terminated) (absent : w.find? a.agreementId = none)
  | retired (monitored : a.status.isMonitored = true) (known : w.isRetired a.agreementId = true)
  | watching (monitored : a.status.isMonitored = true) (satisfied : a.firstViolation? now = none)
      (entry : w.find? a.agreementId = some (.ofFound a none now))

variable {w w' : WatchTable} {now : Instant} {a : Agreement}

theorem isRetired_congr {id : String} (same : w'.find? id = w.find? id) : w'.isRetired id = w.isRetired id := by
  rw [isRetired, same, isRetired]

theorem Settled.congr (settled : w.Settled now a)
    (same : w'.find? a.agreementId = w.find? a.agreementId) : w'.Settled now a := by
  cases settled with
  | gone terminated absent => exact .gone terminated (same.trans absent)
  | retired monitored known => exact .retired monitored ((isRetired_congr same).trans known)
  | watching monitored satisfied entry => exact .watching monitored satisfied (same.trans entry)

def watches (w : WatchTable) (a : Agreement) : Bool :=
  a.status.isMonitored && !w.isRetired a.agreementId

theorem Settled.watches_iff (settled : w.Settled now a) :
    w.watches a = true ↔ ∃ e, w.find? a.agreementId = some e ∧ e.state = .watching := by
  cases settled with
  | gone terminated absent => simp [watches, terminated, AgreementStatus.isMonitored, absent]
  | retired monitored known =>
      obtain ⟨e, entry, state⟩ : ∃ e, w.find? a.agreementId = some e ∧ e.state = .retired := by
        simpa [isRetired, Option.any_eq_true] using known
      simp [watches, known, entry, state]
  | watching monitored satisfied entry =>
      have active : w.isRetired a.agreementId = false := by simp [isRetired, entry, WatchEntry.ofFound]
      simp [watches, monitored, active, entry, WatchEntry.ofFound]

theorem record_self (entry : w.find? a.agreementId = some (.ofFound a none now)) :
    w.record a none now = w := by
  refine Catalog.ext_find? fun id => ?_
  rw [find?_record]
  split
  · next same => rw [same, entry]
  · rfl

theorem erase_self {id : String} (absent : w.find? id = none) : w.erase id = w := by
  refine Catalog.ext_find? fun other => ?_
  rw [Catalog.find?_erase]
  split
  · next same => rw [same, absent]
  · rfl

end WatchTable

namespace Scan

variable {sc next : Scan} {a b : Agreement} {constraintId : Option String}

theorem Examined.settled (examined : sc.Examined a next none) :
    next.monitor.watch.Settled sc.service.clock a := by
  cases examined with
  | terminated unmonitored =>
      have terminated : a.status = .terminated := by
        simpa [AgreementStatus.isMonitored] using unmonitored
      refine .gone terminated ?_
      change (sc.monitor.watch.erase a.agreementId).find? a.agreementId = none
      rw [Catalog.find?_erase, if_pos rfl]
  | retired monitored known => exact .retired monitored known
  | satisfied monitored active found =>
      refine .watching monitored found ?_
      change (sc.monitor.watch.record a none _).find? a.agreementId = _
      rw [WatchTable.find?_record, if_pos rfl]
      rfl

theorem conclude_others (sc : Scan) {agreementId id : String} (other : id ≠ agreementId)
    (result : Except Failure Receipt) :
    (sc.conclude agreementId result).monitor.watch.find? id = sc.monitor.watch.find? id := by
  cases result with
  | error f => rfl
  | ok receipt =>
      change (sc.monitor.watch.markRetired agreementId).find? id = _
      rw [WatchTable.find?_markRetired, if_neg other]

theorem conclude_settled {now : Instant} (monitored : a.status.isMonitored = true)
    (present : (sc.monitor.watch.find? a.agreementId).isSome = true) (receipt : Receipt) :
    (sc.conclude a.agreementId (.ok receipt)).monitor.watch.Settled now a := by
  refine .retired monitored ?_
  change (sc.monitor.watch.markRetired a.agreementId).isRetired a.agreementId = true
  rw [WatchTable.isRetired_markRetired, if_pos rfl, present]

theorem Examined.of_settled (examined : sc.Examined a next constraintId)
    (settled : sc.monitor.watch.Settled sc.service.clock a) :
    constraintId = none ∧ next.monitor.watch = sc.monitor.watch ∧
      next.report =
        { sc.report with evaluated := sc.report.evaluated + (sc.monitor.watch.watches a).toNat } := by
  cases examined with
  | terminated unmonitored =>
      cases settled with
      | gone terminated absent =>
          refine ⟨rfl, WatchTable.erase_self absent, ?_⟩
          simp [dismiss, noting, mapReport, mapWatch, Catalog.contains, absent, WatchTable.watches,
            unmonitored]
      | retired monitored known => simp [monitored] at unmonitored
      | watching monitored satisfied entry => simp [monitored] at unmonitored
  | retired monitored known =>
      exact ⟨rfl, rfl, by simp [noting, WatchTable.watches, known]⟩
  | satisfied monitored active found =>
      cases settled with
      | gone terminated absent => simp [terminated, AgreementStatus.isMonitored] at monitored
      | retired monitored known => simp [active] at known
      | watching monitored satisfied entry =>
          refine ⟨rfl, WatchTable.record_self entry, ?_⟩
          simp [noting, evaluating, mapReport, mapWatch, WatchTable.watches, monitored, active]
  | violated monitored active found =>
      cases settled with
      | gone terminated absent => simp [terminated, AgreementStatus.isMonitored] at monitored
      | retired monitored known => simp [active] at known
      | watching monitored satisfied entry => simp [satisfied] at found

end Scan

end RetirementLedger

import RetirementLedger.Proofs.Catalog
import RetirementLedger.Proofs.Monitor.Steps

namespace RetirementLedger

namespace WatchTable

variable (w : WatchTable)

theorem isRetired_record (a : Agreement) (found : Option (Constraint × Violation)) (now : Instant)
    (id : String) :
    isRetired (w.record a found now) id = (id != a.agreementId && w.isRetired id) := by
  unfold isRetired record
  rw [Catalog.find?_insert]
  by_cases same : id = a.agreementId
  · cases found <;> simp [same]
  · simp [same]

theorem isRetired_erase (name id : String) :
    isRetired (w.erase name) id = (id != name && w.isRetired id) := by
  unfold isRetired
  rw [Catalog.find?_erase]
  by_cases same : id = name <;> simp [same]

theorem isRetired_retain (keep : String → Bool) (id : String) :
    isRetired (w.retain keep) id = (keep id && w.isRetired id) := by
  unfold isRetired
  rw [Catalog.find?_retain]
  cases keep id <;> simp

theorem isRetired_markRetired (name id : String) :
    isRetired (w.markRetired name) id =
      if id = name then (w.find? name).isSome else w.isRetired id := by
  unfold isRetired markRetired
  rw [Catalog.find?_modify]
  by_cases same : id = name
  · cases w.find? name <;> simp [same]
  · simp [same]

end WatchTable

namespace Scan

variable {sc : Scan} {id : String}

theorem Examined.isRetired {a : Agreement} {next : Scan} {constraintId : Option String}
    (examined : sc.Examined a next constraintId) (retired : next.monitor.watch.isRetired id = true) :
    sc.monitor.watch.isRetired id = true := by
  cases examined with
  | terminated unmonitored =>
      change WatchTable.isRetired (sc.monitor.watch.erase a.agreementId) id = true at retired
      rw [WatchTable.isRetired_erase] at retired
      exact (Bool.and_eq_true_iff.mp retired).2
  | retired monitored known => exact retired
  | satisfied monitored active found =>
      change (sc.monitor.watch.record a _ _).isRetired id = true at retired
      rw [WatchTable.isRetired_record] at retired
      exact (Bool.and_eq_true_iff.mp retired).2
  | violated monitored active found =>
      change (sc.monitor.watch.record a _ _).isRetired id = true at retired
      rw [WatchTable.isRetired_record] at retired
      exact (Bool.and_eq_true_iff.mp retired).2

theorem conclude_isRetired {agreementId : String} {result : Except Failure Receipt}
    (retired : (sc.conclude agreementId result).monitor.watch.isRetired id = true) :
    sc.monitor.watch.isRetired id = true ∨ id = agreementId ∧ ∃ receipt, result = .ok receipt := by
  cases result with
  | error f => exact .inl retired
  | ok receipt =>
      change (sc.monitor.watch.markRetired agreementId).isRetired id = true at retired
      rw [WatchTable.isRetired_markRetired] at retired
      split at retired
      · next same => exact .inr ⟨same, receipt, rfl⟩
      · exact .inl retired

theorem prune_close_watch (sc : Scan) :
    sc.prune.close.monitor.watch =
      if sc.report.cancelled then sc.monitor.watch
      else sc.monitor.watch.retain sc.listedIds.contains := by
  cases cancelled : sc.report.cancelled <;>
    simp [prune, close, Monitor.complete, cancelled, mapWatch, mapReport]

theorem prune_close_isRetired (retired : sc.prune.close.monitor.watch.isRetired id = true) :
    sc.monitor.watch.isRetired id = true := by
  rw [prune_close_watch] at retired
  split at retired
  · exact retired
  · rw [WatchTable.isRetired_retain] at retired
    exact (Bool.and_eq_true_iff.mp retired).2

end Scan

end RetirementLedger

import RetirementLedger.Proofs.Monitor.Watch

namespace RetirementLedger

namespace WatchEntry

/-- The entry stands under its own id, and it names a constraint and a violation exactly if it is not
merely watching. -/
structure IsSound (e : WatchEntry) (id : String) : Prop where
  filed : e.agreementId = id
  active : e.status ≠ .terminated
  watching : e.state = .watching → e.constraintId = none ∧ e.violation = none
  violated : e.state ≠ .watching → e.constraintId.isSome = true ∧ e.violation.isSome = true

def ofFound (a : Agreement) (found : Option (Constraint × Violation)) (now : Instant) : WatchEntry where
  agreementId := a.agreementId
  status := a.status
  state := if found.isSome then .violated else .watching
  constraintId := found.map (·.1.constraintId)
  violation := found.map (·.2)
  lastEvaluatedAt := now

theorem ofFound_isSound {a : Agreement} (monitored : a.status.isMonitored = true)
    (found : Option (Constraint × Violation)) (now : Instant) :
    (ofFound a found now).IsSound a.agreementId := by
  have active : a.status ≠ .terminated := by
    intro terminated
    rw [terminated] at monitored
    cases monitored
  cases found with
  | none =>
      refine ⟨rfl, active, fun _ => ⟨rfl, rfl⟩, fun violated => ?_⟩
      exact absurd rfl violated
  | some pair =>
      refine ⟨rfl, active, fun watching => ?_, fun _ => ⟨rfl, rfl⟩⟩
      cases watching

theorem IsSound.retire {e : WatchEntry} {id : String} (sound : e.IsSound id)
    (violated : e.state ≠ .watching) : WatchEntry.IsSound { e with state := .retired } id where
  filed := sound.filed
  active := sound.active
  watching watching := by cases watching
  violated _ := sound.violated violated

end WatchEntry

namespace WatchTable

variable {w : WatchTable} {id : String} {e : WatchEntry}

def IsSound (w : WatchTable) : Prop := ∀ id e, w.find? id = some e → e.IsSound id

theorem find?_record (w : WatchTable) (a : Agreement) (found : Option (Constraint × Violation))
    (now : Instant) (id : String) :
    (w.record a found now).find? id =
      if id = a.agreementId then some (.ofFound a found now) else w.find? id :=
  Catalog.find?_insert w a.agreementId id _

theorem find?_markRetired (w : WatchTable) (name id : String) :
    (w.markRetired name).find? id =
      if id = name then (w.find? name).map fun e => { e with state := .retired } else w.find? id :=
  Catalog.find?_modify w name id _

theorem isRetired_of_find? (known : w.find? id = some e) (retired : e.state = .retired) :
    w.isRetired id = true := by
  simp [isRetired, known, retired]

theorem IsSound.record (sound : w.IsSound) {a : Agreement} (monitored : a.status.isMonitored = true)
    (found : Option (Constraint × Violation)) (now : Instant) : (w.record a found now).IsSound := by
  intro id e known
  rw [find?_record] at known
  split at known
  · next same =>
      cases known
      rw [same]
      exact WatchEntry.ofFound_isSound monitored found now
  · exact sound id e known

theorem IsSound.erase (sound : w.IsSound) (name : String) : IsSound (w.erase name) := by
  intro id e known
  rw [Catalog.find?_erase] at known
  split at known
  · cases known
  · exact sound id e known

theorem IsSound.retain (sound : w.IsSound) (keep : String → Bool) : IsSound (w.retain keep) := by
  intro id e known
  rw [Catalog.find?_retain] at known
  split at known
  · exact sound id e known
  · cases known

theorem IsSound.markRetired (sound : w.IsSound) {name : String}
    (violated : ∀ e, w.find? name = some e → e.state ≠ .watching) : (w.markRetired name).IsSound := by
  intro id e known
  rw [find?_markRetired] at known
  split at known
  · next same =>
      obtain ⟨before, entry, rfl⟩ := Option.map_eq_some_iff.mp known
      rw [same]
      exact (sound name before entry).retire (violated before entry)
  · exact sound id e known

end WatchTable

namespace Scan

variable {sc next : Scan} {a : Agreement} {constraintId : Option String} {id : String}
  {e : WatchEntry}

theorem Examined.isSound (examined : sc.Examined a next constraintId)
    (sound : sc.monitor.watch.IsSound) : next.monitor.watch.IsSound := by
  cases examined with
  | terminated unmonitored => exact sound.erase a.agreementId
  | retired monitored known => exact sound
  | satisfied monitored active found => exact sound.record monitored none sc.service.clock
  | violated monitored active found => exact sound.record monitored _ sc.service.clock

theorem Examined.ne_watching {violated : String} (examined : sc.Examined a next (some violated))
    (known : next.monitor.watch.find? a.agreementId = some e) : e.state ≠ .watching := by
  cases examined with
  | @violated c v monitored active found =>
      change (sc.monitor.watch.record a (some (c, v)) sc.service.clock).find? _ = _ at known
      rw [WatchTable.find?_record, if_pos rfl] at known
      cases known
      intro watching
      cases watching

theorem Examined.keeps_retired (examined : sc.Examined a next constraintId)
    (known : sc.monitor.watch.find? id = some e) (retired : e.state = .retired) :
    next.monitor.watch.find? id = some e ∨
      next.monitor.watch.find? id = none ∧ constraintId = none ∧ a.agreementId = id ∧
        a.status = .terminated := by
  have recorded (found : Option (Constraint × Violation))
      (active : sc.monitor.watch.isRetired a.agreementId = false) :
      (sc.monitor.watch.record a found sc.service.clock).find? id = some e := by
    have other : id ≠ a.agreementId := by
      intro same
      rw [← same, WatchTable.isRetired_of_find? known retired] at active
      cases active
    rw [WatchTable.find?_record, if_neg other, known]
  cases examined with
  | terminated unmonitored =>
      have erased : ((sc.noting a).dismiss a.agreementId).monitor.watch.find? id =
          if id = a.agreementId then none else sc.monitor.watch.find? id :=
        Catalog.find?_erase sc.monitor.watch a.agreementId id
      by_cases same : id = a.agreementId
      · have status : a.status = .terminated := by
          simpa [AgreementStatus.isMonitored] using unmonitored
        rw [if_pos same] at erased
        exact .inr ⟨erased, rfl, same.symm, status⟩
      · rw [if_neg same, known] at erased
        exact .inl erased
  | retired monitored vouched => exact .inl known
  | satisfied monitored active found => exact .inl (recorded none active)
  | violated monitored active found => exact .inl (recorded _ active)

theorem conclude_isSound {agreementId : String} {result : Except Failure Receipt}
    (sound : sc.monitor.watch.IsSound)
    (violated : ∀ e, sc.monitor.watch.find? agreementId = some e → e.state ≠ .watching) :
    (sc.conclude agreementId result).monitor.watch.IsSound := by
  cases result with
  | error f => exact sound
  | ok receipt => exact sound.markRetired violated

theorem conclude_keeps_retired {agreementId : String} {result : Except Failure Receipt}
    (known : sc.monitor.watch.find? id = some e) (retired : e.state = .retired) :
    (sc.conclude agreementId result).monitor.watch.find? id = some e := by
  cases result with
  | error f => exact known
  | ok receipt =>
      change (sc.monitor.watch.markRetired agreementId).find? id = some e
      rw [WatchTable.find?_markRetired]
      split
      · next same =>
          rw [← same, known, Option.map_some, ← retired]
      · exact known

theorem prune_close_isSound (sound : sc.monitor.watch.IsSound) :
    sc.prune.close.monitor.watch.IsSound := by
  rw [prune_close_watch]
  split
  · exact sound
  · exact sound.retain _

theorem prune_close_keeps (known : sc.monitor.watch.find? id = some e) :
    sc.prune.close.monitor.watch.find? id = some e ∨
      sc.prune.close.monitor.watch.find? id = none ∧ sc.report.cancelled = false ∧
        id ∉ sc.listedIds := by
  rw [prune_close_watch]
  cases cancelled : sc.report.cancelled with
  | true => exact .inl known
  | false =>
      rw [if_neg Bool.false_ne_true, Catalog.find?_retain, known]
      by_cases listed : id ∈ sc.listedIds
      · exact .inl (by simp [listed])
      · exact .inr ⟨by simp [listed], rfl, listed⟩

end Scan

end RetirementLedger

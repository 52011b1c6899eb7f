import RetirementLedger.Proofs.Monitor.Entries

namespace RetirementLedger

theorem AgreementStatus.isMonitored_iff {s : AgreementStatus} :
    s.isMonitored = true ↔ s ≠ .terminated := by
  cases s <;> decide

namespace Agreement

def last? (agreements : List Agreement) (id : String) : Option Agreement :=
  agreements.reverse.find? (·.agreementId = id)

theorem last?_concat (agreements : List Agreement) (a : Agreement) (id : String) :
    last? (agreements ++ [a]) id = if a.agreementId = id then some a else last? agreements id := by
  rw [last?, List.reverse_append, List.reverse_singleton, List.singleton_append, List.find?_cons]
  by_cases same : a.agreementId = id <;> simp [same, last?]

theorem last?_eq_none_iff {agreements : List Agreement} {id : String} :
    last? agreements id = none ↔ ∀ a ∈ agreements, a.agreementId ≠ id := by
  simp [last?]

end Agreement

namespace WatchTable

variable {w w₀ : WatchTable} {seen : List Agreement} {a : Agreement}

theorem isSome_markRetired (w : WatchTable) (name id : String) :
    ((w.markRetired name).find? id).isSome = (w.find? id).isSome := by
  rw [find?_markRetired]
  split
  · next same => rw [Option.isSome_map, same]
  · rfl

theorem isSome_record (w : WatchTable) (a : Agreement) (found : Option (Constraint × Violation))
    (now : Instant) {id : String} (known : (w.find? id).isSome = true) :
    ((w.record a found now).find? id).isSome = true := by
  rw [find?_record]
  split
  · rfl
  · exact known

theorem length_gained_erase (w : WatchTable) (name : String) :
    (Catalog.gained (w.erase name) w).length = if w.contains name then 1 else 0 := by
  have lost : (Catalog.gained (w.erase name) w).Perm (if w.contains name then [name] else []) := by
    refine (List.perm_ext_iff_of_nodup (Catalog.nodup_gained _ _) (by split <;> simp)).mpr fun id => ?_
    rw [Catalog.mem_gained, Catalog.find?_erase, Catalog.contains]
    by_cases same : id = name
    · cases known : w.find? name <;> simp [same, known]
    · cases w.find? id <;> simp [same]
  rw [lost.length_eq]
  split <;> rfl

/-- The table was `w₀` before visits to these agreements. -/
structure ReflectsVisits (w w₀ : WatchTable) (seen : List Agreement) : Prop where
  met : ∀ id a, Agreement.last? seen id = some a →
    ((w.find? id).isSome = true ↔ a.status ≠ .terminated)
  unmet : ∀ id, Agreement.last? seen id = none → w.find? id = w₀.find? id

theorem reflectsVisits_nil (w : WatchTable) : w.ReflectsVisits w [] where
  met id a last := by cases last
  unmet id last := rfl

theorem ReflectsVisits.visit {after : WatchTable} (reflectsVisits : w.ReflectsVisits w₀ seen)
    (here : (after.find? a.agreementId).isSome = true ↔ a.status ≠ .terminated)
    (others : ∀ id, id ≠ a.agreementId → after.find? id = w.find? id) :
    after.ReflectsVisits w₀ (seen ++ [a]) where
  met id b last := by
    rw [Agreement.last?_concat] at last
    split at last
    · next same =>
        cases last
        rw [← same]
        exact here
    · next other =>
        rw [others id (Ne.symm other)]
        exact reflectsVisits.met id b last
  unmet id last := by
    rw [Agreement.last?_concat] at last
    split at last
    · cases last
    · next other =>
        rw [others id (Ne.symm other)]
        exact reflectsVisits.unmet id last

theorem ReflectsVisits.markRetired (reflectsVisits : w.ReflectsVisits w₀ seen) {name : String}
    (met : ∃ a ∈ seen, a.agreementId = name) : (w.markRetired name).ReflectsVisits w₀ seen where
  met id a last := by rw [isSome_markRetired, reflectsVisits.met id a last]
  unmet id last := by
    obtain ⟨a, member, same⟩ := met
    have other : id ≠ name := by
      rintro rfl
      exact Agreement.last?_eq_none_iff.mp last a member same
    rw [find?_markRetired, if_neg other, reflectsVisits.unmet id last]

end WatchTable

namespace Scan

variable {sc next : Scan} {a : Agreement} {constraintId : Option String}

theorem Examined.others (examined : sc.Examined a next constraintId) {id : String}
    (other : id ≠ a.agreementId) : next.monitor.watch.find? id = sc.monitor.watch.find? id := by
  have recorded (found : Option (Constraint × Violation)) :
      (sc.monitor.watch.record a found sc.service.clock).find? id = sc.monitor.watch.find? id := by
    rw [WatchTable.find?_record, if_neg other]
  cases examined with
  | terminated unmonitored =>
      change (sc.monitor.watch.erase a.agreementId).find? id = _
      rw [Catalog.find?_erase, if_neg other]
  | retired monitored known => rfl
  | satisfied monitored active found => exact recorded none
  | violated monitored active found => exact recorded _

theorem Examined.isSome_iff (examined : sc.Examined a next constraintId) :
    (next.monitor.watch.find? a.agreementId).isSome = true ↔ a.status ≠ .terminated := by
  rw [← AgreementStatus.isMonitored_iff]
  have recorded (found : Option (Constraint × Violation)) :
      ((sc.monitor.watch.record a found sc.service.clock).find? a.agreementId).isSome = true := by
    rw [WatchTable.find?_record, if_pos rfl]
    rfl
  cases examined with
  | terminated unmonitored =>
      change ((sc.monitor.watch.erase a.agreementId).find? a.agreementId).isSome = true ↔ _
      rw [Catalog.find?_erase, if_pos rfl, unmonitored]
      simp
  | retired monitored known =>
      have entry : (sc.monitor.watch.find? a.agreementId).isSome = true := by
        unfold WatchTable.isRetired at known
        cases found : sc.monitor.watch.find? a.agreementId with
        | none => simp [found] at known
        | some e => rfl
      exact iff_of_true entry monitored
  | satisfied monitored active found => exact iff_of_true (recorded none) monitored
  | violated monitored active found => exact iff_of_true (recorded _) monitored

theorem Examined.reflectsVisits {w₀ : WatchTable} {seen : List Agreement}
    (examined : sc.Examined a next constraintId) (reflectsVisits : sc.monitor.watch.ReflectsVisits w₀ seen) :
    next.monitor.watch.ReflectsVisits w₀ (seen ++ [a]) :=
  reflectsVisits.visit examined.isSome_iff fun _ other => examined.others other

theorem conclude_reflectsVisits {w₀ : WatchTable} {seen : List Agreement} {agreementId : String}
    (reflectsVisits : sc.monitor.watch.ReflectsVisits w₀ seen) (met : ∃ a ∈ seen, a.agreementId = agreementId)
    (result : Except Failure Receipt) :
    (sc.conclude agreementId result).monitor.watch.ReflectsVisits w₀ seen := by
  cases result with
  | error f => exact reflectsVisits
  | ok receipt => exact reflectsVisits.markRetired met

theorem Examined.removed (examined : sc.Examined a next constraintId) :
    next.report.removed =
      sc.report.removed + (Catalog.gained next.monitor.watch sc.monitor.watch).length := by
  have none_gone {after : WatchTable}
      (kept : ∀ id, (sc.monitor.watch.find? id).isSome = true → (after.find? id).isSome = true) :
      sc.report.removed =
        sc.report.removed + (Catalog.gained after sc.monitor.watch).length := by
    rw [Catalog.gained_eq_nil kept]
    rfl
  cases examined with
  | terminated unmonitored =>
      change _ = sc.report.removed +
        (Catalog.gained (sc.monitor.watch.erase a.agreementId) sc.monitor.watch).length
      rw [WatchTable.length_gained_erase]
      rfl
  | retired monitored known => exact none_gone fun _ present => present
  | satisfied monitored active found => exact none_gone fun _ => WatchTable.isSome_record _ a _ _
  | violated monitored active found => exact none_gone fun _ => WatchTable.isSome_record _ a _ _

theorem conclude_gained (sc : Scan) (agreementId : String) (result : Except Failure Receipt) :
    Catalog.gained sc.monitor.watch (sc.conclude agreementId result).monitor.watch = [] ∧
      Catalog.gained (sc.conclude agreementId result).monitor.watch sc.monitor.watch = [] := by
  have same (id : String) : ((sc.conclude agreementId result).monitor.watch.find? id).isSome =
      (sc.monitor.watch.find? id).isSome := by
    cases result with
    | error f => rfl
    | ok receipt => exact WatchTable.isSome_markRetired _ _ _
  refine ⟨Catalog.gained_eq_nil fun id present => ?_, Catalog.gained_eq_nil fun id present => ?_⟩
  · rwa [← same]
  · rwa [same]

theorem prune_close_gained (sc : Scan) :
    Catalog.gained sc.monitor.watch sc.prune.close.monitor.watch = [] := by
  refine Catalog.gained_eq_nil fun id present => ?_
  rw [prune_close_watch] at present
  split at present
  · exact present
  · rw [Catalog.find?_retain] at present
    split at present
    · exact present
    · cases present

theorem prune_close_removed (sc : Scan) :
    sc.prune.close.report.removed + sc.prune.close.monitor.watch.size =
      sc.report.removed + sc.monitor.watch.size := by
  have closed : sc.prune.close.report.removed = sc.prune.report.removed := rfl
  rw [prune_close_watch, closed]
  cases cancelled : sc.report.cancelled with
  | true => simp [prune, cancelled]
  | false =>
      have pruned : sc.prune.report.removed = sc.report.removed +
          (sc.monitor.watch.size - (sc.monitor.watch.retain sc.listedIds.contains).size) := by
        simp [prune, cancelled, mapWatch, mapReport]
      have fewer : (sc.monitor.watch.retain sc.listedIds.contains).size ≤ sc.monitor.watch.size :=
        List.length_filter_le _ _
      rw [pruned]
      simp only [Bool.false_eq_true, if_false]
      omega

/-- What a report says of the agreements that were visited, of which `skipped` were known to be retired. The
retirement of the last one may be `underWay` still. -/
structure Balances (r : ScanReport) (seen : List Agreement) (skipped underWay : Nat) : Prop where
  violations : r.violations = r.retired + r.alreadyRetired + r.failures + underWay
  bounded : r.violations ≤ r.evaluated
  seen : seen.length = r.evaluated + seen.countP (·.status = .terminated) + skipped

theorem balances_start (startedAt : Option Instant) (listed : Nat) :
    Balances { startedAt, listed } [] 0 0 :=
  ⟨rfl, Nat.le_refl 0, rfl⟩

def skips (sc : Scan) (a : Agreement) : Bool :=
  a.status.isMonitored && sc.monitor.watch.isRetired a.agreementId

theorem Examined.balances {seen : List Agreement} {skipped : Nat}
    (examined : sc.Examined a next constraintId) (balances : Balances sc.report seen skipped 0) :
    Balances next.report (seen ++ [a]) (skipped + (sc.skips a).toNat) constraintId.toList.length := by
  obtain ⟨violations, bounded, counted⟩ := balances
  have active (monitored : a.status.isMonitored = true) :
      (seen ++ [a]).countP (·.status = .terminated) = seen.countP (·.status = .terminated) := by
    simp [List.countP_append, AgreementStatus.isMonitored_iff.mp monitored]
  cases examined with
  | terminated unmonitored =>
      have terminated : a.status = .terminated := by
        simpa [AgreementStatus.isMonitored] using unmonitored
      refine ⟨violations, bounded, ?_⟩
      simp [skips, terminated, AgreementStatus.isMonitored, counted, List.countP_append, dismiss,
        noting, mapReport, mapWatch]
      omega
  | retired monitored known =>
      refine ⟨violations, bounded, ?_⟩
      rw [active monitored]
      simp [skips, monitored, known, counted, noting]
      omega
  | satisfied monitored here found =>
      refine ⟨violations, Nat.le_succ_of_le bounded, ?_⟩
      rw [active monitored]
      simp [skips, monitored, here, counted, noting, evaluating, mapReport, mapWatch]
      omega
  | violated monitored here found =>
      refine ⟨congrArg (· + 1) violations, Nat.succ_le_succ bounded, ?_⟩
      rw [active monitored]
      simp [skips, monitored, here, counted, noting, evaluating, mapReport, mapWatch]
      omega

theorem conclude_balances {seen : List Agreement} {skipped : Nat}
    (balances : Balances sc.report seen skipped 1) (agreementId : String)
    (result : Except Failure Receipt) :
    Balances (sc.conclude agreementId result).report seen skipped 0 := by
  obtain ⟨violations, bounded, counted⟩ := balances
  cases result with
  | error f =>
      refine ⟨?_, bounded, counted⟩
      simp only [conclude, mapReport]
      omega
  | ok receipt =>
      cases new : receipt.wasNew with
      | true =>
          simp only [conclude, mapReport, mapWatch, new, if_true]
          refine ⟨?_, bounded, counted⟩
          dsimp only
          omega
      | false =>
          simp only [conclude, mapReport, mapWatch, new, Bool.false_eq_true, if_false]
          refine ⟨?_, bounded, counted⟩
          dsimp only
          omega

theorem prune_close_counts (sc : Scan) :
    sc.prune.close.report =
      { sc.report with
        finishedAt := sc.prune.close.report.finishedAt
        removed := sc.prune.close.report.removed } := by
  cases cancelled : sc.report.cancelled <;> simp [prune, close, cancelled, mapWatch, mapReport]

/-- The scan has met these agreements since the table was `w₀`, and this many entries have appeared. -/
structure HasVisited (sc : Scan) (w₀ : WatchTable) (seen : List Agreement)
    (newEntries skipped underWay : Nat) : Prop where
  ids : sc.listedIds = (seen.map (·.agreementId)).reverse
  whole : sc.report.cancelled = false
  reflectsVisits : sc.monitor.watch.ReflectsVisits w₀ seen
  removed : sc.report.removed + sc.monitor.watch.size = w₀.size + newEntries
  balances : Balances sc.report seen skipped underWay

variable {w₀ : WatchTable} {seen : List Agreement} {newEntries skipped underWay : Nat}

theorem HasVisited.congr (hasVisited : sc.HasVisited w₀ seen newEntries skipped underWay)
    (watch : next.monitor.watch = sc.monitor.watch) (report : next.report = sc.report)
    (ids : next.listedIds = sc.listedIds) : next.HasVisited w₀ seen newEntries skipped underWay where
  ids := ids.trans hasVisited.ids
  whole := by rw [report, hasVisited.whole]
  reflectsVisits := watch ▸ hasVisited.reflectsVisits
  removed := by rw [report, watch, hasVisited.removed]
  balances := report ▸ hasVisited.balances

theorem Examined.hasVisited (examined : sc.Examined a next constraintId)
    (hasVisited : sc.HasVisited w₀ seen newEntries skipped 0) :
    next.HasVisited w₀ (seen ++ [a])
      (newEntries + (Catalog.gained sc.monitor.watch next.monitor.watch).length)
      (skipped + (sc.skips a).toNat) constraintId.toList.length where
  ids := by
    rw [examined.listedIds, hasVisited.ids, List.map_append, List.reverse_append]
    rfl
  whole := examined.frame.2.2.2.2.2.trans hasVisited.whole
  reflectsVisits := examined.reflectsVisits hasVisited.reflectsVisits
  removed := by
    have before := hasVisited.removed
    have counted := examined.removed
    have sizes := Catalog.size_add_gained sc.monitor.watch next.monitor.watch
    omega
  balances := examined.balances hasVisited.balances

theorem conclude_hasVisited (hasVisited : sc.HasVisited w₀ seen newEntries skipped 1) {agreementId : String}
    (met : ∃ a ∈ seen, a.agreementId = agreementId) (result : Except Failure Receipt) :
    (sc.conclude agreementId result).HasVisited w₀ seen newEntries skipped 0 where
  ids := (sc.conclude_listedIds agreementId result).trans hasVisited.ids
  whole := (sc.conclude_frame agreementId result).2.2.2.trans hasVisited.whole
  reflectsVisits := conclude_reflectsVisits hasVisited.reflectsVisits met result
  removed := by
    have counted : (sc.conclude agreementId result).report.removed = sc.report.removed := by
      cases result with
      | error f => rfl
      | ok receipt => cases new : receipt.wasNew <;> simp [conclude, mapReport, mapWatch, new]
    obtain ⟨gained, lost⟩ := sc.conclude_gained agreementId result
    have sizes := Catalog.size_add_gained sc.monitor.watch (sc.conclude agreementId result).monitor.watch
    rw [gained, lost] at sizes
    rw [counted, ← hasVisited.removed]
    exact congrArg _ sizes
  balances := conclude_balances hasVisited.balances agreementId result

theorem HasVisited.mem_names (hasVisited : sc.HasVisited w₀ seen newEntries skipped underWay) (id : String) :
    id ∈ sc.prune.close.monitor.watch.names ↔
      ∃ a, Agreement.last? seen id = some a ∧ a.status ≠ .terminated := by
  have listed : id ∈ sc.listedIds ↔ Agreement.last? seen id ≠ none := by
    rw [Ne, Agreement.last?_eq_none_iff, hasVisited.ids]
    simp
  rw [Catalog.mem_names, prune_close_watch, hasVisited.whole]
  simp only [Bool.false_eq_true, if_false, Catalog.find?_retain, List.contains_iff_mem]
  cases last : Agreement.last? seen id with
  | none =>
      have unlisted : id ∉ sc.listedIds := fun present => listed.mp present last
      simp [unlisted]
  | some a =>
      have present : id ∈ sc.listedIds := listed.mpr (by simp [last])
      rw [if_pos present, hasVisited.reflectsVisits.met id a last]
      simp

end Scan

end RetirementLedger

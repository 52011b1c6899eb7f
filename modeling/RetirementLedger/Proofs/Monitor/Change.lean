import RetirementLedger.Proofs.InsertionOrder
import RetirementLedger.Proofs.Monitor.Entries
import RetirementLedger.Proofs.Monitor.Visits

/-!
What a visit changes. A visit looks at nothing but what concerns its agreement, so it makes one and the same
change to all scans that are the same about the agreement, as long as nothing tells the scan to stop.
-/
namespace RetirementLedger

namespace Catalog

variable {α : Type}

def put (c : Catalog α) (name : String) : Option α → Catalog α
  | some value => c.insert name value
  | none => c.erase name

@[simp] theorem find?_put (c : Catalog α) (name other : String) (value : Option α) :
    (c.put name value).find? other = if other = name then value else c.find? other := by
  cases value with
  | none => exact find?_erase c name other
  | some value => exact find?_insert c name other value

theorem put_find? (c : Catalog α) (name : String) : c.put name (c.find? name) = c := by
  refine ext_find? fun other => ?_
  rw [find?_put]
  split
  · next same => rw [same]
  · rfl

theorem put_comm (c : Catalog α) {name other : String} (differ : name ≠ other) (value value' : Option α) :
    (c.put name value).put other value' = (c.put other value').put name value := by
  refine ext_find? fun id => ?_
  simp only [find?_put]
  by_cases same : id = name
  · simp [same, differ]
  · simp [same]

theorem put_modify (c : Catalog α) (name : String) (value : α) (f : α → α) :
    (c.put name (some value)).modify name f = c.put name (some (f value)) := by
  refine ext_find? fun other => ?_
  rw [find?_modify, find?_put, find?_put, find?_put]
  split
  · rw [if_pos rfl]
    rfl
  · rfl

end Catalog

namespace Store

variable {s : Store}

theorem insert_eq (sound : s.Sound) (r : Retirement) :
    s.insert r =
      match s.accept r with
      | .error f => (.error f, s)
      | .ok () =>
        match s.record? r.agreementId with
        | some earlier => (.ok ⟨earlier, false⟩, s)
        | none =>
          match s.kept r with
          | .error f => (.error f, s)
          | .ok stored => (.ok ⟨stored, true⟩, s.fill [r]) := by
  have filled := insert_eq_fill sound.current r
  have insertion := (insert_spec sound r).1
  unfold admits at filled
  revert filled insertion
  rcases s.insert r with ⟨reply, after⟩
  intro filled insertion
  cases insertion with
  | refused refusal => rw [refusal]
  | known accepted held => rw [accepted, held]
  | unkept accepted free loss => rw [accepted, free, loss]
  | made accepted free kept content kind =>
      rw [accepted, kept] at filled
      rw [accepted, free, kept]
      exact congrArg _ filled

theorem fill_append (s : Store) (records more : List Retirement) :
    s.fill (records ++ more) = (s.fill records).fill more := by
  cases s with
  | memory ledger =>
      simp only [fill, List.map_append]
      rw [Catalog.fill_append]
  | database db =>
      cases table : db.table with
      | none => simp only [fill, table]
      | some held =>
          cases held with
          | standard rows =>
              simp only [fill, table, List.map_append]
              rw [Catalog.fill_append]
              rfl
          | foreign columns count row => simp only [fill, table]

theorem fill_comm (s : Store) {records more : List Retirement}
    (distinct : ((records ++ more).map (·.agreementId)).Nodup) :
    (s.fill records).fill more = (s.fill more).fill records := by
  rw [← fill_append, ← fill_append]
  exact fill_of_perm s List.perm_append_comm distinct

theorem accept_fill (s : Store) (records : List Retirement) : (s.fill records).accept = s.accept := by
  cases s with
  | memory ledger => rfl
  | database db =>
      unfold fill
      dsimp only
      split <;> rfl

theorem kept_fill (s : Store) (records : List Retirement) : (s.fill records).kept = s.kept := by
  cases s with
  | memory ledger => rfl
  | database db =>
      unfold fill
      dsimp only
      split <;> rfl

theorem record?_fill_of_other {records : List Retirement} {id : String}
    (others : ∀ r ∈ records, r.agreementId ≠ id) : (s.fill records).record? id = s.record? id := by
  have absent {α : Type} (f : Retirement → α) :
      (records.map fun r => (r.agreementId, f r)).lookup id = none := by
    rw [List.lookup_eq_none_iff]
    simpa using fun r member => Ne.symm (others r member)
  cases s with
  | memory ledger =>
      simp only [fill, record?, find?, Ledger.find?]
      rw [Catalog.find?_fill, absent, Option.or_none]
  | database db =>
      cases table : db.table with
      | none => simp only [fill, table]
      | some held =>
          cases held with
          | standard rows =>
              have filled : (rows.fill (records.map Row.entry)).find? id = rows.find? id := by
                rw [Catalog.find?_fill]
                exact (congrArg _ (absent Row.ofRetirement)).trans (Option.or_none)
              simp only [fill, table, record?, find?]
              rw [Database.find?_eq rfl, Database.find?_eq table, filled]
          | foreign columns count row => simp only [fill, table]

end Store

/-! ## Attempts -/

/-- What an attempt does beside its answer: the record it stores, and the notice it sends or fails to. -/
structure Filing where
  stored : Option Retirement := none
  sent : List Notice := []
  unsent : Nat := 0

namespace Service

variable {s t : Service} {id : String}

def file (s : Service) (f : Filing) : Service :=
  { s with
    store := { s.store with store := s.holdings.fill f.stored.toList }
    delivered := s.delivered ++ f.sent
    auditFailures := s.auditFailures + f.unsent }

theorem file_nothing (current : s.holdings.IsCurrent) : s.file {} = s := by
  have unfilled : s.holdings.fill [] = s.holdings := Store.fill_nil current
  simp [file, unfilled]

/-- A call about the agreement would find the same in both. -/
structure SameAbout (s t : Service) (id : String) : Prop where
  clock : t.clock = s.clock
  faults : t.store.faults = s.store.faults
  refuses : t.refuses = s.refuses
  accept : t.holdings.accept = s.holdings.accept
  kept : t.holdings.kept = s.holdings.kept
  record : t.holdings.record? id = s.holdings.record? id

theorem sameAbout_file {f : Filing} (others : ∀ r ∈ f.stored, r.agreementId ≠ id) :
    s.SameAbout (s.file f) id where
  clock := rfl
  faults := rfl
  refuses := rfl
  accept := Store.accept_fill _ _
  kept := Store.kept_fill _ _
  record := Store.record?_fill_of_other (by simpa using others)

/-- Once a record has passed all checks and no fault strikes, this is what the rest of the call comes to,
wherever things are the same about the agreement. -/
def Files (s : Service) (r : Retirement) (reply : Reply Receipt) (f : Filing) : Prop :=
  (∀ stored ∈ f.stored, stored.agreementId = r.agreementId) ∧
    ∀ t : Service, s.SameAbout t r.agreementId → t.holdings.Sound →
      t.store.insertFault r.agreementId = none → (RetireCall.checked r).finish t = (reply, t.file f)

theorem finish_checked_of_spared {r : Retirement} (spared : s.store.insertFault r.agreementId = none)
    {reply : Except Failure Receipt} {after : Store} (inserted : s.holdings.insert r = (reply, after)) :
    (RetireCall.checked r).finish s =
      (.ofExcept reply, RetireCall.settled (.ofExcept reply) (s.withHoldings after)) := by
  have insert : s.insert r = (.ofExcept reply, s.withHoldings after) := by
    unfold Service.insert FaultyStore.insert
    rw [spared, inserted]
    rfl
  rw [RetireCall.finish_checked, insert]

theorem files_error {r : Retirement} {f : Failure}
    (refused : ∀ t : Service, s.SameAbout t r.agreementId → t.holdings.Sound →
      t.holdings.insert r = (.error f, t.holdings)) : s.Files r (.failed f) {} := by
  refine ⟨by simp, fun t same sound spared => ?_⟩
  rw [finish_checked_of_spared spared (refused t same sound), file_nothing sound.current]
  rfl

theorem exists_files (s : Service) (r : Retirement) : ∃ reply f, s.Files r reply f := by
  cases accepted : s.holdings.accept r with
  | error f =>
      refine ⟨.failed f, {}, files_error fun t same sound => ?_⟩
      rw [Store.insert_eq sound, same.accept, accepted]
  | ok u =>
      cases held : s.holdings.record? r.agreementId with
      | some earlier =>
          refine ⟨.ok ⟨earlier, false⟩, {}, by simp, fun t same sound spared => ?_⟩
          have known : t.holdings.insert r = (.ok ⟨earlier, false⟩, t.holdings) := by
            rw [Store.insert_eq sound, same.accept, accepted, same.record, held]
          rw [finish_checked_of_spared spared known, file_nothing sound.current]
          rfl
      | none =>
          cases kept : s.holdings.kept r with
          | error f =>
              refine ⟨.failed f, {}, files_error fun t same sound => ?_⟩
              rw [Store.insert_eq sound, same.accept, accepted, same.record, held, same.kept, kept]
          | ok stored =>
              refine ⟨.ok ⟨stored, true⟩,
                { stored := some r
                  sent := if s.refuses stored.agreementId then [] else [.ofRetirement stored]
                  unsent := if s.refuses stored.agreementId then 1 else 0 },
                by simp, fun t same sound spared => ?_⟩
              have made : t.holdings.insert r = (.ok ⟨stored, true⟩, t.holdings.fill [r]) := by
                rw [Store.insert_eq sound, same.accept, accepted, same.record, held, same.kept, kept]
              rw [finish_checked_of_spared spared made, ← same.refuses]
              cases refuses : t.refuses stored.agreementId <;>
                simp [Reply.ofExcept, RetireCall.settled, announce, withHoldings, file, refuses]

end Service

namespace Attempt

variable {s : Service} {agreementId constraintId : String}

def Files (s : Service) (agreementId constraintId : String) (attempt : Attempt) (f : Filing) : Prop :=
  (∀ r ∈ f.stored, r.agreementId = agreementId) ∧
    ∀ t : Service, s.SameAbout t agreementId → t.holdings.Sound →
      make t agreementId constraintId = (attempt, false, t.file f)

theorem files_nothing {attempt : Attempt}
    (made : ∀ t : Service, s.SameAbout t agreementId →
      make t agreementId constraintId = (attempt, false, t)) :
    Files s agreementId constraintId attempt {} := by
  refine ⟨by simp, fun t same sound => ?_⟩
  rw [made t same, Service.file_nothing sound.current]

theorem exists_files (uncancelled : s.store.faults.cancel agreementId = false) (constraintId : String) :
    ∃ attempt f, Files s agreementId constraintId attempt f := by
  have same_record {t : Service} (same : s.SameAbout t agreementId) :
      record t agreementId constraintId = record s agreementId constraintId := by
    unfold record
    rw [same.clock]
  have same_fault {t : Service} (same : s.SameAbout t agreementId) :
      t.store.insertFault agreementId = s.store.insertFault agreementId := by
    unfold FaultyStore.insertFault
    rw [same.faults]
  cases valid : (record s agreementId constraintId).validate with
  | error f =>
      refine ⟨.answered (.failed f), {}, files_nothing fun t same => ?_⟩
      rw [make_eq, same_record same, valid]
  | ok u =>
      cases struck : s.store.insertFault agreementId with
      | some reply =>
          refine ⟨.answered reply, {}, files_nothing fun t same => ?_⟩
          rw [make_eq, same_record same, valid, same_fault same, struck]
      | none =>
          cases stalls : s.store.faults.stall agreementId with
          | true =>
              refine ⟨.stalled (.checked (record s agreementId constraintId)), {},
                files_nothing fun t same => ?_⟩
              rw [make_eq, same_record same, valid, same_fault same, struck, same.faults, stalls,
                uncancelled]
              rfl
          | false =>
              obtain ⟨reply, f, about, finished⟩ := s.exists_files (record s agreementId constraintId)
              refine ⟨.answered reply, f, about, fun t same sound => ?_⟩
              have whole := finished t same sound ((same_fault same).trans struck)
              rw [make_eq, same_record same, valid, same_fault same, struck, same.faults, stalls,
                uncancelled, whole]
              rfl

end Attempt

/-! ## Visits -/

def ScanReport.plus (r counts : ScanReport) : ScanReport :=
  { r with
    evaluated := r.evaluated + counts.evaluated
    violations := r.violations + counts.violations
    retired := r.retired + counts.retired
    alreadyRetired := r.alreadyRetired + counts.alreadyRetired
    failures := r.failures + counts.failures
    removed := r.removed + counts.removed }

theorem ScanReport.plus_comm (r counts more : ScanReport) :
    (r.plus counts).plus more = (r.plus more).plus counts := by
  simp only [plus, Nat.add_right_comm]

/-- What a visit changes beside noting the id: the entry, the counts of the report, and what its attempt does. -/
structure Change where
  entry : Option WatchEntry
  counts : ScanReport := {}
  filing : Filing := {}
  pending : List RetireCall := []

namespace Scan

variable {sc sc' : Scan} {a : Agreement} {id : String}

def amend (sc : Scan) (id : String) (c : Change) : Scan :=
  { sc with
    monitor := { sc.monitor with watch := sc.monitor.watch.put id c.entry }
    service := sc.service.file c.filing
    report := sc.report.plus c.counts
    listedIds := id :: sc.listedIds
    pending := sc.pending ++ c.pending }

structure SameAbout (sc sc' : Scan) (id : String) : Prop where
  config : sc'.monitor.config = sc.monitor.config
  entry : sc'.monitor.watch.find? id = sc.monitor.watch.find? id
  service : sc.service.SameAbout sc'.service id

/-- Whenever things are the same about the agreement, a visit to it makes this change. -/
def Changes (sc : Scan) (a : Agreement) (c : Change) : Prop :=
  (∀ r ∈ c.filing.stored, r.agreementId = a.agreementId) ∧
    ∀ sc' : Scan, sc.SameAbout sc' a.agreementId → sc'.service.holdings.Sound →
      sc'.visit a = sc'.amend a.agreementId c

theorem visit_of_terminated (unmonitored : a.status.isMonitored = false) :
    sc.visit a = (sc.noting a).dismiss a.agreementId := by
  simp [visit, examine, noting, unmonitored]

theorem visit_of_retired (monitored : a.status.isMonitored = true)
    (known : sc.monitor.watch.isRetired a.agreementId = true) : sc.visit a = sc.noting a := by
  simp [visit, examine, noting, monitored, known]

theorem visit_of_satisfied (monitored : a.status.isMonitored = true)
    (active : sc.monitor.watch.isRetired a.agreementId = false)
    (found : a.firstViolation? sc.service.clock = none) :
    sc.visit a = (sc.noting a).evaluating a none := by
  simp [visit, examine, noting, monitored, active, judge, evaluating, found]

def markViolated (sc : Scan) (a : Agreement) (c : Constraint) (v : Violation) : Scan :=
  ((sc.noting a).evaluating a (some (c, v))).mapReport fun r => { r with violations := r.violations + 1 }

theorem visit_of_violated (monitored : a.status.isMonitored = true)
    (active : sc.monitor.watch.isRetired a.agreementId = false) {c : Constraint} {v : Violation}
    (found : a.firstViolation? sc.service.clock = some (c, v)) {attempt : Attempt} {service : Service}
    (made : Attempt.make sc.service a.agreementId c.constraintId = (attempt, false, service)) :
    sc.visit a =
      (conclude { sc.markViolated a c v with service } a.agreementId
        (attempt.result sc.monitor.config)).withPending (sc.pending ++ attempt.pending) := by
  have visit : sc.visit a = (sc.markViolated a c v).retireViolator a.agreementId c.constraintId := by
    simp [visit, examine, noting, monitored, active, judge, evaluating, markViolated, found]
  rw [visit, (sc.markViolated a c v).retireViolator_eq made, Bool.or_false]
  rfl

theorem SameAbout.isRetired (same : sc.SameAbout sc' id) :
    sc'.monitor.watch.isRetired id = sc.monitor.watch.isRetired id := by
  rw [WatchTable.isRetired, same.entry, WatchTable.isRetired]

theorem exists_changes_of_violated (monitored : a.status.isMonitored = true)
    (active : sc.monitor.watch.isRetired a.agreementId = false) {c : Constraint} {v : Violation}
    (found : a.firstViolation? sc.service.clock = some (c, v))
    (uncancelled : sc.service.store.faults.cancel a.agreementId = false) :
    ∃ change, sc.Changes a change := by
  obtain ⟨attempt, f, about, made⟩ := Attempt.exists_files uncancelled c.constraintId
  have visited {sc' : Scan} (same : sc.SameAbout sc' a.agreementId)
      (sound : sc'.service.holdings.Sound) :
      sc'.visit a =
        (conclude { sc'.markViolated a c v with service := sc'.service.file f } a.agreementId
          (attempt.result sc.monitor.config)).withPending (sc'.pending ++ attempt.pending) := by
    rw [← same.service.clock] at found
    rw [visit_of_violated monitored (same.isRetired.trans active) found (made _ same.service sound),
      same.config]
  generalize entry : WatchEntry.ofFound a (some (c, v)) sc.service.clock = e
  have recorded {sc' : Scan} (same : sc.SameAbout sc' a.agreementId) :
      (sc'.markViolated a c v).monitor.watch = sc'.monitor.watch.put a.agreementId (some e) := by
    rw [← entry, ← same.service.clock]
    rfl
  cases result : attempt.result sc.monitor.config with
  | error failure =>
      refine ⟨⟨some e, { evaluated := 1, violations := 1, failures := 1 }, f, attempt.pending⟩, about,
        fun sc' same sound => ?_⟩
      rw [visited same sound, result, amend, ← recorded same]
      rfl
  | ok receipt =>
      refine ⟨⟨some { e with state := .retired },
        { evaluated := 1, violations := 1, retired := receipt.wasNew.toNat,
          alreadyRetired := (!receipt.wasNew).toNat }, f, attempt.pending⟩, about,
        fun sc' same sound => ?_⟩
      have marked : (sc'.markViolated a c v).monitor.watch.markRetired a.agreementId =
          sc'.monitor.watch.put a.agreementId (some { e with state := .retired }) := by
        rw [recorded same]
        exact Catalog.put_modify sc'.monitor.watch _ e _
      rw [visited same sound, result, amend, ← marked]
      cases new : receipt.wasNew <;> simp only [conclude, new] <;> rfl

theorem exists_changes (sc : Scan) (a : Agreement)
    (uncancelled : sc.service.store.faults.cancel a.agreementId = false) : ∃ c, sc.Changes a c := by
  cases monitored : a.status.isMonitored with
  | false =>
      refine ⟨{ entry := none
                counts := { removed := if sc.monitor.watch.contains a.agreementId then 1 else 0 } },
        by simp, fun sc' same sound => ?_⟩
      rw [visit_of_terminated monitored, amend, Service.file_nothing sound.current, List.append_nil,
        Catalog.contains, ← same.entry]
      rfl
  | true =>
      cases known : sc.monitor.watch.isRetired a.agreementId with
      | true =>
          refine ⟨{ entry := sc.monitor.watch.find? a.agreementId }, by simp, fun sc' same sound => ?_⟩
          rw [visit_of_retired monitored (same.isRetired.trans known), amend,
            Service.file_nothing sound.current, List.append_nil, ← same.entry, Catalog.put_find?]
          rfl
      | false =>
          cases found : a.firstViolation? sc.service.clock with
          | none =>
              refine ⟨{ entry := some (.ofFound a none sc.service.clock), counts := { evaluated := 1 } },
                by simp, fun sc' same sound => ?_⟩
              rw [← same.service.clock] at found ⊢
              rw [visit_of_satisfied monitored (same.isRetired.trans known) found, amend,
                Service.file_nothing sound.current, List.append_nil]
              rfl
          | some pair => exact exists_changes_of_violated monitored known found uncancelled

end Scan

end RetirementLedger

import RetirementLedger.Monitor.Watch
import RetirementLedger.Proofs.Wire.Choices

namespace RetirementLedger
open Json

theorem Instant.exists_toJson? {t : Instant} (writable : t.isWritable = true) :
    ∃ text, t.toJson? = some (.text text) :=
  ⟨_, by rw [toJson?, rfc3339?, if_pos writable]; rfl⟩

theorem Json.exists_optionalInstant? {o : Option Instant} (writable : ∀ t ∈ o, t.isWritable = true) :
    ∃ j, optionalInstant? o = some j := by
  cases o with
  | none => exact ⟨_, rfl⟩
  | some t =>
      obtain ⟨text, written⟩ := Instant.exists_toJson? (writable t rfl)
      exact ⟨_, written⟩

theorem Json.nullable?_optionalInstant {o : Option Instant} {j : Json}
    (written : optionalInstant? o = some j) : nullable? Instant.ofJson? j = some o := by
  cases o with
  | none =>
      cases written
      rfl
  | some t =>
      obtain ⟨stamp, -, rfl⟩ := Option.map_eq_some_iff.mp written
      rw [nullable?_of_ne_null (by rintro ⟨⟩), Instant.ofJson?_of_toJson? written, Option.map_some]

theorem Json.isHeld_optionalInstant {o : Option Instant} {j : Json}
    (written : optionalInstant? o = some j) (depth : Nat) : isHeld depth j = true := by
  cases o with
  | none =>
      cases written
      rfl
  | some t =>
      obtain ⟨stamp, -, rfl⟩ := Option.map_eq_some_iff.mp written
      rfl

theorem AgreementStatus.ofJson?_toJson (s : AgreementStatus) : ofJson? s.toJson = some s := by
  cases s <;> rfl

theorem Constraint.ofJson?_toJson (c : Constraint) : ofJson? c.toJson = some c := by
  have slots : c.toJson.slots? fields =
      some [.given (.text c.constraintId), .given (.ofOption .text c.validFrom),
        .given (.ofOption .text c.validUntil)] :=
    slots?_ofFields [("constraint_id", _), ("valid_from", _), ("valid_until", _)] (by simp)
  rw [ofJson?, slots]
  simp [Slot.required, Slot.withDefault, nullable?_text]

theorem Agreement.ofJson?_toJson (a : Agreement) : ofJson? a.toJson = some a := by
  have slots : a.toJson.slots? fields =
      some [.given (.text a.agreementId), .given a.status.toJson,
        .given (.array (a.constraints.map Constraint.toJson))] :=
    slots?_ofFields [("agreement_id", _), ("status", _), ("constraints", _)] (by simp)
  have constraints := list?_map a.constraints fun c _ => c.ofJson?_toJson
  rw [ofJson?, slots]
  simp [Slot.required, Slot.withDefault, a.status.ofJson?_toJson, constraints]

theorem WatchState.ofJson?_toJson (s : WatchState) : ofJson? s.toJson = some s := by
  cases s <;> rfl

namespace WatchEntry

theorem exists_toJson? {e : WatchEntry} (writable : e.lastEvaluatedAt.isWritable = true) :
    ∃ j, e.toJson? = some j := by
  obtain ⟨text, stamp⟩ := Instant.exists_toJson? writable
  exact ⟨_, by rw [toJson?, stamp]; rfl⟩

theorem ofJson?_of_toJson? {e : WatchEntry} {j : Json} {depth : Nat} (shallow : depth + 1 < depthLimit)
    (written : e.toJson? = some j) : ofJson? depth j = some e := by
  obtain ⟨stamp, form, same⟩ := Option.bind_eq_some_iff.mp written
  cases same
  have slots : slots? fields (ofFields [("agreement_id", .text e.agreementId),
      ("status", e.status.toJson), ("state", e.state.toJson),
      ("constraint_id", .ofOption .text e.constraintId),
      ("violation", .ofOption Violation.toJson e.violation), ("last_evaluated_at", stamp)]) =
        some [.given (.text e.agreementId), .given e.status.toJson, .given e.state.toJson,
          .given (.ofOption .text e.constraintId), .given (.ofOption Violation.toJson e.violation),
          .given stamp] :=
    slots?_ofFields [("agreement_id", _), ("status", _), ("state", _), ("constraint_id", _),
      ("violation", _), ("last_evaluated_at", _)] (by simp)
  have violation : nullable? (Violation.ofJson? (depth + 1)) (.ofOption Violation.toJson e.violation) =
      some e.violation :=
    nullable?_ofOption (fun v _ => v.ofJson?_toJson shallow) fun v same => by cases v <;> cases same
  rw [ofJson?, slots]
  simp [Slot.required, Slot.nullable, nullable?_text, violation, e.status.ofJson?_toJson,
    e.state.ofJson?_toJson, Instant.ofJson?_of_toJson? form]

end WatchEntry

namespace ScanReport

structure IsWritable (r : ScanReport) : Prop where
  started : ∀ t ∈ r.startedAt, t.isWritable = true
  finished : ∀ t ∈ r.finishedAt, t.isWritable = true
  counts : ∀ n ∈ [r.listed, r.evaluated, r.violations, r.retired, r.alreadyRetired, r.failures,
    r.removed], n < Nat.pow 2 64

variable {r : ScanReport} {j : Json}

theorem IsWritable.exists_toJson? (writable : r.IsWritable) : ∃ j, r.toJson? = some j := by
  obtain ⟨started, first⟩ := exists_optionalInstant? writable.started
  obtain ⟨finished, second⟩ := exists_optionalInstant? writable.finished
  exact ⟨_, by rw [toJson?, first, second]; rfl⟩

theorem IsWritable.ofJson?_of_toJson? (writable : r.IsWritable) (written : r.toJson? = some j) :
    ofJson? j = some r := by
  obtain ⟨started, first, rest⟩ := Option.bind_eq_some_iff.mp written
  obtain ⟨finished, second, same⟩ := Option.bind_eq_some_iff.mp rest
  cases same
  have slots : slots? fields (ofFields [("started_at", started), ("finished_at", finished),
      ("listed", .nat r.listed), ("evaluated", .nat r.evaluated), ("violations", .nat r.violations),
      ("retired", .nat r.retired), ("already_retired", .nat r.alreadyRetired),
      ("failures", .nat r.failures), ("removed", .nat r.removed),
      ("cancelled", .bool r.cancelled)]) =
        some [.given started, .given finished, .given (.nat r.listed), .given (.nat r.evaluated),
          .given (.nat r.violations), .given (.nat r.retired), .given (.nat r.alreadyRetired),
          .given (.nat r.failures), .given (.nat r.removed), .given (.bool r.cancelled)] :=
    slots?_ofFields [("started_at", _), ("finished_at", _), ("listed", _), ("evaluated", _),
      ("violations", _), ("retired", _), ("already_retired", _), ("failures", _), ("removed", _),
      ("cancelled", _)] (by simp)
  have counts := writable.counts
  simp only [List.forall_mem_cons] at counts
  obtain ⟨listed, evaluated, violations, retired, already, failures, removed, -⟩ := counts
  rw [ofJson?, slots]
  simp [Slot.required, nullable?_optionalInstant first, nullable?_optionalInstant second,
    word?_nat listed, word?_nat evaluated, word?_nat violations, word?_nat retired,
    word?_nat already, word?_nat failures, word?_nat removed]

theorem ne_null (written : r.toJson? = some j) : j ≠ .null := by
  obtain ⟨started, -, rest⟩ := Option.bind_eq_some_iff.mp written
  obtain ⟨finished, -, same⟩ := Option.bind_eq_some_iff.mp rest
  rintro rfl
  cases same

theorem IsWritable.isHeld (writable : r.IsWritable) (written : r.toJson? = some j) {d : Nat}
    (shallow : d < depthLimit) : j.isHeld d = true := by
  obtain ⟨started, first, rest⟩ := Option.bind_eq_some_iff.mp written
  obtain ⟨finished, second, same⟩ := Option.bind_eq_some_iff.mp rest
  cases same
  have counts := writable.counts
  simp only [List.forall_mem_cons] at counts
  obtain ⟨listed, evaluated, violations, retired, already, failures, removed, -⟩ := counts
  refine isHeld_ofFields shallow ?_
  simp only [List.forall_mem_cons]
  exact ⟨isHeld_optionalInstant first _, isHeld_optionalInstant second _, isHeld_nat _ listed,
    isHeld_nat _ evaluated, isHeld_nat _ violations, isHeld_nat _ retired, isHeld_nat _ already,
    isHeld_nat _ failures, isHeld_nat _ removed, rfl, List.forall_mem_nil _⟩

end ScanReport

namespace ScanOutcome

theorem exists_toJson? {o : ScanOutcome} (writable : ∀ r, o = .completed r → r.IsWritable) :
    ∃ j, o.toJson? = some j := by
  cases o with
  | completed r =>
      obtain ⟨j, written⟩ := (writable r rfl).exists_toJson?
      exact ⟨_, by rw [toJson?, written]; rfl⟩
  | skippedBusy => exact ⟨_, rfl⟩

theorem ofJson?_of_toJson? {o : ScanOutcome} (writable : ∀ r, o = .completed r → r.IsWritable)
    {j : Json} (written : o.toJson? = some j) : ofJson? j = some o := by
  cases o with
  | skippedBusy =>
      cases written
      rfl
  | completed r =>
      obtain ⟨report, form, same⟩ := Option.bind_eq_some_iff.mp written
      cases same
      have held : isHeld 0 (ofFields [("outcome", .text "completed"), ("report", report)]) = true :=
        isHeld_ofFields (by decide)
          (by simp [isHeld_text, (writable r rfl).isHeld form (d := 1) (by decide)])
      have tagged : tagged? "outcome" (ofFields [("outcome", .text "completed"), ("report", report)]) =
          some (.text "completed", ofFields [("report", report)]) := tagged?_ofFields _ (by simp)
      have slots : slots? [["report"]] (ofFields [("report", report)]) = some [.given report] :=
        slots?_ofFields [("report", _)] (by simp)
      rw [ofJson?, guard_eq held]
      simp [tagged, slots, Slot.required,
        (writable r rfl).ofJson?_of_toJson? form]

end ScanOutcome

namespace MonitorStatus

structure IsWritable (s : MonitorStatus) : Prop where
  counts : ∀ n ∈ [s.cycles, s.skippedBusy, s.aborted], n < Nat.pow 2 64
  report : ∀ r ∈ s.lastReport, r.IsWritable
  watch : ∀ e ∈ s.watch, e.lastEvaluatedAt.isWritable = true

variable {s : MonitorStatus} {j : Json}

def report? : Option ScanReport → Option Json
  | none => some .null
  | some r => r.toJson?

theorem toJson?_eq (s : MonitorStatus) :
    s.toJson? = (report? s.lastReport).bind fun report =>
      (s.watch.mapM WatchEntry.toJson?).bind fun watch =>
        some (ofFields [("cycles", .nat s.cycles), ("skipped_busy", .nat s.skippedBusy),
          ("aborted", .nat s.aborted), ("last_report", report),
          ("last_error", .ofOption .text s.lastError), ("watch", .array watch)]) := by
  unfold toJson?
  cases s.lastReport <;> rfl

theorem exists_report? {o : Option ScanReport} (writable : ∀ r ∈ o, r.IsWritable) :
    ∃ report, report? o = some report := by
  cases o with
  | none => exact ⟨_, rfl⟩
  | some r => exact (writable r rfl).exists_toJson?

theorem nullable?_report? {o : Option ScanReport} (writable : ∀ r ∈ o, r.IsWritable)
    (written : report? o = some j) : nullable? ScanReport.ofJson? j = some o := by
  cases o with
  | none =>
      cases written
      rfl
  | some r =>
      rw [nullable?_of_ne_null (ScanReport.ne_null written),
        (writable r rfl).ofJson?_of_toJson? written, Option.map_some]

theorem IsWritable.exists_toJson? (writable : s.IsWritable) : ∃ j, s.toJson? = some j := by
  obtain ⟨report, first⟩ := exists_report? writable.report
  obtain ⟨watch, second⟩ := exists_mapM fun e member => WatchEntry.exists_toJson? (writable.watch e member)
  exact ⟨_, by rw [toJson?_eq, first, Option.bind_some, second, Option.bind_some]⟩

theorem IsWritable.ofJson?_of_toJson? (writable : s.IsWritable) (written : s.toJson? = some j) :
    ofJson? j = some s := by
  rw [toJson?_eq] at written
  obtain ⟨report, first, rest⟩ := Option.bind_eq_some_iff.mp written
  obtain ⟨watch, second, same⟩ := Option.bind_eq_some_iff.mp rest
  cases same
  have slots : slots? fields (ofFields [("cycles", .nat s.cycles), ("skipped_busy", .nat s.skippedBusy),
      ("aborted", .nat s.aborted), ("last_report", report),
      ("last_error", .ofOption .text s.lastError), ("watch", .array watch)]) =
        some [.given (.nat s.cycles), .given (.nat s.skippedBusy), .given (.nat s.aborted),
          .given report, .given (.ofOption .text s.lastError), .given (.array watch)] :=
    slots?_ofFields [("cycles", _), ("skipped_busy", _), ("aborted", _), ("last_report", _),
      ("last_error", _), ("watch", _)] (by simp)
  have entries : list? (WatchEntry.ofJson? 2) (.array watch) = some s.watch :=
    list?_of_mapM (fun _ _ => WatchEntry.ofJson?_of_toJson? (by decide)) second
  have counts := writable.counts
  simp only [List.forall_mem_cons] at counts
  obtain ⟨cycles, skipped, aborted, -⟩ := counts
  rw [ofJson?, slots]
  simp [Slot.required, Slot.nullable, word?_nat cycles, word?_nat skipped, word?_nat aborted,
    nullable?_report? writable.report first, nullable?_text, entries]

end MonitorStatus

end RetirementLedger

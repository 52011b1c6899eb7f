import RetirementLedger.Proofs.Json.Reader
import RetirementLedger.Proofs.Query.Outcome
import RetirementLedger.Proofs.Wire.Monitor

namespace RetirementLedger
open Json

namespace Receipt

theorem exists_toJson? {r : Receipt} (writable : r.record.retiredAt.isWritable = true) :
    ∃ j, r.toJson? = some j := by
  obtain ⟨record, written⟩ := Retirement.exists_toJson? writable
  exact ⟨_, by rw [toJson?, written]; rfl⟩

theorem ofJson?_of_toJson? {r : Receipt} {j : Json} (written : r.toJson? = some j) :
    ofJson? j = some r := by
  obtain ⟨record, form, same⟩ := Option.bind_eq_some_iff.mp written
  cases same
  have slots : slots? [["record"], ["was_new"]]
      (ofFields [("record", record), ("was_new", .bool r.wasNew)]) =
        some [.given record, .given (.bool r.wasNew)] :=
    slots?_ofFields [("record", _), ("was_new", _)] (by simp)
  rw [ofJson?, slots]
  simp [Slot.required, Retirement.ofJson?_of_toJson? form]

end Receipt

namespace Notice

theorem exists_toJson? {n : Notice} (writable : n.retiredAt.isWritable = true) :
    ∃ j, n.toJson? = some j := by
  obtain ⟨text, stamp⟩ := Instant.exists_toJson? writable
  exact ⟨_, by rw [toJson?, stamp]; rfl⟩

theorem ofJson?_of_toJson? {n : Notice} {j : Json} (written : n.toJson? = some j) :
    ofJson? j = some n := by
  obtain ⟨stamp, form, same⟩ := Option.bind_eq_some_iff.mp written
  cases same
  have slots : slots? fields (ofFields [("eventType", .text n.eventType),
      ("agreementId", .text n.agreementId), ("reason", .text n.reason), ("retiredAt", stamp)]) =
        some [.given (.text n.eventType), .given (.text n.agreementId), .given (.text n.reason),
          .given stamp] :=
    slots?_ofFields [("eventType", _), ("agreementId", _), ("reason", _), ("retiredAt", _)] (by simp)
  rw [ofJson?, slots]
  simp [Slot.required, Instant.ofJson?_of_toJson? form]

end Notice

theorem RetireRequest.ofJson?_toJson (r : RetireRequest) : ofJson? r.toJson = some r := rfl

namespace RetirementQuery

variable {q : RetirementQuery}

theorem toJson?_eq (q : RetirementQuery) :
    q.toJson? = (optionalInstant? q.retiredAfter).bind fun after =>
      (optionalInstant? q.retiredBefore).bind fun before =>
        some (ofFields [("agreement_id", .ofOption .text q.agreementId),
          ("agreement_id_prefix", .ofOption .text q.agreementIdPrefix),
          ("reason", .ofOption .text q.reason), ("reason_prefix", .ofOption .text q.reasonPrefix),
          ("retired_after", after), ("retired_before", before),
          ("offset", .ofOption .word32 q.offset), ("limit", .ofOption .word32 q.limit),
          ("order", .ofOption SortOrder.toJson q.order)]) := by
  unfold toJson?
  cases q.retiredAfter <;> cases q.retiredBefore <;> rfl

theorem IsWritable.exists_toJson? (writable : q.IsWritable) : ∃ j, q.toJson? = some j := by
  obtain ⟨after, first⟩ := exists_optionalInstant? writable.after
  obtain ⟨before, second⟩ := exists_optionalInstant? writable.before
  exact ⟨_, by rw [toJson?_eq, first, second]; rfl⟩

theorem ofJson?_of_toJson? {j : Json} (written : q.toJson? = some j) : ofJson? j = some q := by
  rw [toJson?_eq] at written
  obtain ⟨after, first, rest⟩ := Option.bind_eq_some_iff.mp written
  obtain ⟨before, second, same⟩ := Option.bind_eq_some_iff.mp rest
  cases same
  have slots : slots? fields (ofFields [("agreement_id", .ofOption .text q.agreementId),
      ("agreement_id_prefix", .ofOption .text q.agreementIdPrefix),
      ("reason", .ofOption .text q.reason), ("reason_prefix", .ofOption .text q.reasonPrefix),
      ("retired_after", after), ("retired_before", before),
      ("offset", .ofOption .word32 q.offset), ("limit", .ofOption .word32 q.limit),
      ("order", .ofOption SortOrder.toJson q.order)]) =
        some [.given (.ofOption .text q.agreementId), .given (.ofOption .text q.agreementIdPrefix),
          .given (.ofOption .text q.reason), .given (.ofOption .text q.reasonPrefix), .given after,
          .given before, .given (.ofOption .word32 q.offset), .given (.ofOption .word32 q.limit),
          .given (.ofOption SortOrder.toJson q.order)] :=
    slots?_ofFields [("agreement_id", _), ("agreement_id_prefix", _), ("reason", _),
      ("reason_prefix", _), ("retired_after", _), ("retired_before", _), ("offset", _),
      ("limit", _), ("order", _)] (by simp)
  have word (o : Option UInt32) : nullable? word32? (ofOption word32 o) = some o :=
    nullable?_ofOption (fun n _ => word32?_word32 n) fun _ same => by cases same
  have order : nullable? SortOrder.ofJson? (ofOption SortOrder.toJson q.order) = some q.order :=
    nullable?_ofOption (fun o _ => o.ofJson?_toJson) fun o same => by cases o <;> cases same
  rw [ofJson?, slots]
  simp [Slot.withDefault, nullable?_text, nullable?_optionalInstant first,
    nullable?_optionalInstant second, word, order]

end RetirementQuery

theorem SchemaStatus.ofJson?_toJson {s : SchemaStatus}
    (signed : ∀ n ∈ s.currentVersion :: s.targetVersion :: s.pendingVersions, IsSigned64 n) :
    ofJson? s.toJson = some s := by
  have slots : s.toJson.slots? fields =
      some [.given (.integer s.currentVersion), .given (.integer s.targetVersion),
        .given (.array (s.pendingVersions.map .integer)), .given (.bool s.inferredFromLegacy)] :=
    slots?_ofFields [("current_version", _), ("target_version", _), ("pending_versions", _),
      ("inferred_from_legacy", _)] (by simp)
  obtain ⟨current, target, pending⟩ := List.forall_mem_cons.mp signed |>.imp_right
    List.forall_mem_cons.mp
  have versions : list? signed64? (.array (s.pendingVersions.map .integer)) = some s.pendingVersions :=
    list?_map s.pendingVersions fun n member => signed64?_integer (pending n member)
  rw [ofJson?, slots]
  simp [Slot.required, signed64?_integer current, signed64?_integer target, versions]

theorem ImportSummary.ofJson?_toJson {s : ImportSummary} (imported : s.importedRecords < Nat.pow 2 64)
    (skipped : s.skippedRecords < Nat.pow 2 64) : ofJson? s.toJson = some s := by
  have slots : s.toJson.slots? fields =
      some [.given (.nat s.importedRecords), .given (.nat s.skippedRecords)] :=
    slots?_ofFields [("imported_records", _), ("skipped_existing_records", _)] (by simp)
  rw [ofJson?, slots]
  simp [Slot.required, word?_nat imported, word?_nat skipped]

def Json.Carries {α : Type} (write : α → Option Json) (read : Json → Option α) (a : α) : Prop :=
  ∃ j, write a = some j ∧ (parse? j.render).bind read = some a ∧
    (parse? j.renderPretty).bind read = some a

theorem Json.carries_of {α : Type} {write : α → Option Json} {read : Json → Option α} {a : α}
    (written : ∃ j, write a = some j) (restored : ∀ j, write a = some j → read j = some a) :
    Carries write read a := by
  obtain ⟨j, form⟩ := written
  have read := restored j form
  exact ⟨j, form, by rw [parse?_render, Option.bind_some, read],
    by rw [parse?_renderPretty, Option.bind_some, read]⟩

theorem Json.carries_total {α : Type} {write : α → Json} {read : Json → Option α} {a : α}
    (restored : read (write a) = some a) : Carries (some ∘ write) read a :=
  carries_of ⟨_, rfl⟩ fun j written => by
    cases written
    exact restored

/-- Every value of every kind that is ever written as JSON has a text, and is read from it. Instants need a
local year of four digits and an offset in whole minutes, and numbers a place in their 64 bits. -/
theorem written_is_read :
    (∀ r : Retirement, r.retiredAt.isWritable = true →
      Carries Retirement.toJson? Retirement.ofJson? r) ∧
    (∀ r : Receipt, r.record.retiredAt.isWritable = true → Carries Receipt.toJson? Receipt.ofJson? r) ∧
    (∀ n : Notice, n.retiredAt.isWritable = true → Carries Notice.toJson? Notice.ofJson? n) ∧
    (∀ r : RetireRequest, Carries (some ∘ RetireRequest.toJson) RetireRequest.ofJson? r) ∧
    (∀ p : Page, (∀ r ∈ p.items, r.retiredAt.isWritable = true) →
      Carries Page.toJson? Page.ofJson? p) ∧
    (∀ c : Criterion, Carries (some ∘ Criterion.toJson) Criterion.ofJson? c) ∧
    (∀ spec : QuerySpec, Carries (some ∘ QuerySpec.toJson) QuerySpec.ofJson? spec) ∧
    (∀ q : RetirementQuery, q.IsWritable →
      Carries RetirementQuery.toJson? RetirementQuery.ofJson? q) ∧
    (∀ c : Constraint, Carries (some ∘ Constraint.toJson) Constraint.ofJson? c) ∧
    (∀ v : Violation, Carries (some ∘ Violation.toJson) (Violation.ofJson? 0) v) ∧
    (∀ v : Verdict, Carries (some ∘ Verdict.toJson) Verdict.ofJson? v) ∧
    (∀ c : ReasonCode, Carries (some ∘ ReasonCode.toJson) ReasonCode.ofJson? c) ∧
    (∀ a : Agreement, Carries (some ∘ Agreement.toJson) Agreement.ofJson? a) ∧
    (∀ e : WatchEntry, e.lastEvaluatedAt.isWritable = true →
      Carries WatchEntry.toJson? (WatchEntry.ofJson? 0) e) ∧
    (∀ r : ScanReport, r.IsWritable → Carries ScanReport.toJson? ScanReport.ofJson? r) ∧
    (∀ o : ScanOutcome, (∀ r, o = .completed r → r.IsWritable) →
      Carries ScanOutcome.toJson? ScanOutcome.ofJson? o) ∧
    (∀ s : MonitorStatus, s.IsWritable → Carries MonitorStatus.toJson? MonitorStatus.ofJson? s) ∧
    (∀ d : Decision, Carries (some ∘ Decision.toJson) Decision.ofJson? d) ∧
    (∀ s : SchemaStatus,
      (∀ n ∈ s.currentVersion :: s.targetVersion :: s.pendingVersions, IsSigned64 n) →
      Carries (some ∘ SchemaStatus.toJson) SchemaStatus.ofJson? s) ∧
    (∀ m : Manifest, IsSigned64 m.schemaVersion → (∀ f ∈ m.files, f.records < Nat.pow 2 64) →
      Carries (some ∘ Manifest.toJson) Manifest.ofJson? m) ∧
    ∀ s : ImportSummary, s.importedRecords < Nat.pow 2 64 → s.skippedRecords < Nat.pow 2 64 →
      Carries (some ∘ ImportSummary.toJson) ImportSummary.ofJson? s := by
  refine ⟨?record, ?receipt, ?notice, ?request, ?page, ?criterion, ?spec, ?query, ?constraint,
    ?violation, ?verdict, ?code, ?agreement, ?entry, ?report, ?outcome, ?status, ?decision, ?schema,
    ?manifest, ?summary⟩
  case record =>
    exact fun r writable => carries_of (Retirement.exists_toJson? writable)
      fun _ => Retirement.ofJson?_of_toJson?
  case receipt =>
    exact fun r writable => carries_of (Receipt.exists_toJson? writable)
      fun _ => Receipt.ofJson?_of_toJson?
  case notice =>
    exact fun n writable => carries_of (Notice.exists_toJson? writable)
      fun _ => Notice.ofJson?_of_toJson?
  case request => exact fun r => carries_total r.ofJson?_toJson
  case page =>
    exact fun p writable => carries_of (Page.exists_toJson? writable) fun _ => Page.ofJson?_of_toJson?
  case criterion => exact fun c => carries_total c.ofJson?_toJson
  case spec => exact fun spec => carries_total spec.ofJson?_toJson
  case query =>
    exact fun q writable => carries_of writable.exists_toJson?
      fun _ => RetirementQuery.ofJson?_of_toJson?
  case constraint => exact fun c => carries_total c.ofJson?_toJson
  case violation => exact fun v => carries_total (v.ofJson?_toJson (by decide))
  case verdict => exact fun v => carries_total v.ofJson?_toJson
  case code => exact fun c => carries_total c.ofJson?_toJson
  case agreement => exact fun a => carries_total a.ofJson?_toJson
  case entry =>
    exact fun e writable => carries_of (WatchEntry.exists_toJson? writable)
      fun _ => WatchEntry.ofJson?_of_toJson? (by decide)
  case report =>
    exact fun r writable => carries_of writable.exists_toJson? fun _ => writable.ofJson?_of_toJson?
  case outcome =>
    exact fun o writable => carries_of (ScanOutcome.exists_toJson? writable)
      fun _ => ScanOutcome.ofJson?_of_toJson? writable
  case status =>
    exact fun s writable => carries_of writable.exists_toJson? fun _ => writable.ofJson?_of_toJson?
  case decision => exact fun d => carries_total d.ofJson?_toJson
  case schema => exact fun s signed => carries_total (SchemaStatus.ofJson?_toJson signed)
  case manifest =>
    exact fun m version bound => carries_total (Manifest.ofJson?_toJson version bound)
  case summary =>
    exact fun s imported skipped => carries_total (ImportSummary.ofJson?_toJson imported skipped)

theorem written_is_read_scan :
    let report : ScanReport :=
      { startedAt := some ⟨1, 19800, by decide, by decide⟩, listed := 3, failures := 1 }
    report.IsWritable ∧ Carries ScanOutcome.toJson? ScanOutcome.ofJson? (.completed report) := by
  intro report
  have writable : report.IsWritable := ⟨by decide, by decide, by decide⟩
  obtain ⟨-, -, -, -, -, -, -, -, -, -, -, -, -, -, -, outcome, -⟩ := written_is_read
  refine ⟨writable, outcome _ fun r same => ?_⟩
  cases same
  exact writable

end RetirementLedger

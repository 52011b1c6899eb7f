import RetirementLedger.Proofs.Instant.Text
import RetirementLedger.Proofs.Json.Fields
import RetirementLedger.Query.Spec
import RetirementLedger.Snapshot.Basic

namespace RetirementLedger

namespace Json

variable {α : Type}

theorem list?_map {read : Json → Option α} {write : α → Json} (items : List α)
    (each : ∀ a ∈ items, read (write a) = some a) :
    list? read (.array (items.map write)) = some items := by
  have mapped : (items.map write).mapM read = some items := by
    induction items with
    | nil => rfl
    | cons a items ih =>
        rw [List.map_cons, List.mapM_cons, each a (.head _), ih fun b member => each b (.tail _ member)]
        rfl
  exact mapped

theorem list?_map_eq {read : Json → Option α} {write : α → Json} {P : α → Prop} {items found : List α}
    (each : ∀ a b, read (write a) = some b → b = a ∧ P a)
    (all : list? read (.array (items.map write)) = some found) : found = items ∧ ∀ a ∈ items, P a := by
  have mapped : (items.map write).mapM read = some found := all
  induction items generalizing found with
  | nil =>
      cases mapped
      exact ⟨rfl, fun a member => absurd member List.not_mem_nil⟩
  | cons a items ih =>
      rw [List.map_cons, List.mapM_cons] at mapped
      obtain ⟨b, first, rest⟩ := Option.bind_eq_some_iff.mp mapped
      obtain ⟨more, others, same⟩ := Option.bind_eq_some_iff.mp rest
      cases same
      obtain ⟨rfl, holds⟩ := each a b first
      obtain ⟨rfl, later⟩ := ih others others
      exact ⟨rfl, List.forall_mem_cons.mpr ⟨holds, later⟩⟩

theorem list?_of_mapM {read : Json → Option α} {write : α → Option Json} {items : List α}
    {written : List Json} (each : ∀ a j, write a = some j → read j = some a)
    (all : items.mapM write = some written) : list? read (.array written) = some items := by
  have mapped : written.mapM read = some items := by
    induction items generalizing written with
    | nil =>
        cases all
        rfl
    | cons a items ih =>
        rw [List.mapM_cons] at all
        obtain ⟨j, first, rest⟩ := Option.bind_eq_some_iff.mp all
        obtain ⟨js, others, same⟩ := Option.bind_eq_some_iff.mp rest
        cases same
        rw [List.mapM_cons, each a j first, ih others]
        rfl
  exact mapped

theorem exists_mapM {write : α → Option Json} {items : List α}
    (each : ∀ a ∈ items, ∃ j, write a = some j) : ∃ written, items.mapM write = some written := by
  induction items with
  | nil => exact ⟨[], rfl⟩
  | cons a items ih =>
      obtain ⟨j, first⟩ := each a (.head _)
      obtain ⟨js, others⟩ := ih fun b member => each b (.tail _ member)
      exact ⟨j :: js, by rw [List.mapM_cons, first, others]; rfl⟩

theorem word?_nat {bits n : Nat} (bound : n < Nat.pow 2 bits) : word? bits (.nat n) = some n := by
  have inside : (0 : Int) ≤ n ∧ (n : Int) ≤ (Nat.pow 2 bits - 1 : Nat) := by omega
  rw [word?, nat, within?, if_pos inside]
  rfl

theorem within?_integer_eq {low high n m : Int} (read : within? low high (.integer n) = some m) :
    m = n ∧ low ≤ n ∧ n ≤ high := by
  rw [within?] at read
  split at read
  · next inside => exact ⟨(Option.some.inj read).symm, inside⟩
  · cases read

theorem word?_nat_eq {bits n m : Nat} (read : word? bits (.nat n) = some m) :
    m = n ∧ n < Nat.pow 2 bits := by
  obtain ⟨k, inside, rfl⟩ := Option.map_eq_some_iff.mp read
  obtain ⟨rfl, -, bound⟩ := within?_integer_eq inside
  have positive : 0 < Nat.pow 2 bits := Nat.two_pow_pos bits
  exact ⟨Int.toNat_natCast n, by omega⟩

def IsSigned64 (n : Int) : Prop := -0x8000000000000000 ≤ n ∧ n ≤ 0x7fffffffffffffff

instance (n : Int) : Decidable (IsSigned64 n) := inferInstanceAs (Decidable (_ ∧ _))

theorem signed64?_integer {n : Int} (bound : IsSigned64 n) : signed64? (.integer n) = some n :=
  if_pos bound

theorem word32?_word32 (n : UInt32) : word32? (word32 n) = some n := by
  rw [word32?, word32, word?_nat n.toNat_lt, Option.map_some, UInt32.ofNat_toNat]

end Json

theorem Instant.ofJson?_of_toJson? {t : Instant} {j : Json} (written : t.toJson? = some j) :
    ofJson? j = some t := by
  obtain ⟨text, form, rfl⟩ := Option.map_eq_some_iff.mp written
  exact ofRfc3339?_of_rfc3339? form

theorem Retirement.ofJson?_of_toJson? {r : Retirement} {j : Json} (written : r.toJson? = some j) :
    ofJson? j = some r := by
  obtain ⟨stamp, form, same⟩ := Option.bind_eq_some_iff.mp written
  cases same
  have slots : (Json.ofFields [("agreement_id", .text r.agreementId), ("reason", .text r.reason),
      ("retired_at", stamp), ("retired_by", .text r.retiredBy)]).slots? fields =
        some [.given (.text r.agreementId), .given (.text r.reason), .given stamp,
          .given (.text r.retiredBy)] :=
    Json.slots?_ofFields [("agreement_id", _), ("reason", _), ("retired_at", _), ("retired_by", _)]
      (by simp)
  rw [ofJson?, slots]
  simp [Json.Slot.required, Json.text, Json.text?, Instant.ofJson?_of_toJson? form]

theorem QueryField.ofJson?_toJson (f : QueryField) : ofJson? f.toJson = some f := by
  cases f with
  | retiredAt => rfl
  | text field => cases field <;> rfl

theorem Operator.ofJson?_toJson (o : Operator) : ofJson? o.toJson = some o := by
  cases o <;> rfl

theorem SortField.ofJson?_toJson (f : SortField) : ofJson? f.toJson = some f := by
  cases f <;> rfl

theorem SortOrder.ofName?_name (o : SortOrder) : ofName? o.name = some o := by
  cases o <;> rfl

theorem SortOrder.ofJson?_toJson (o : SortOrder) : ofJson? o.toJson = some o := by
  cases o <;> rfl

theorem CriterionValue.ofJson?_toJson (v : CriterionValue) : ofJson? v.toJson = some v := by
  cases v with
  | one value => rfl
  | many values =>
      have read : (values.map Json.text).mapM Json.text? = some values :=
        Json.list?_map values fun _ _ => rfl
      rw [toJson, ofJson?, read]
      rfl

theorem Criterion.ofJson?_toJson (c : Criterion) : ofJson? c.toJson = some c := by
  have slots : c.toJson.slots? fields =
      some [.given c.field.toJson, .given c.operator.toJson, .given c.value.toJson] :=
    Json.slots?_ofFields [("field", _), ("operator", _), ("value", _)] (by simp)
  rw [ofJson?, slots]
  simp [Json.Slot.required, QueryField.ofJson?_toJson, Operator.ofJson?_toJson,
    CriterionValue.ofJson?_toJson]

theorem QuerySpec.ofJson?_toJson (spec : QuerySpec) : ofJson? spec.toJson = some spec := by
  have slots : spec.toJson.slots? fields =
      some [.given (.array (spec.criteria.map Criterion.toJson)), .given (.word32 spec.offset),
        .given (.word32 spec.limit), .given spec.sortField.toJson, .given spec.sortOrder.toJson] :=
    Json.slots?_ofFields [("criteria", _), ("offset", _), ("limit", _), ("sort_field", _),
      ("sort_order", _)] (by simp)
  have criteria := Json.list?_map spec.criteria fun c _ => c.ofJson?_toJson
  rw [ofJson?, slots]
  simp [Json.Slot.withDefault, criteria, Json.word32?_word32, SortField.ofJson?_toJson,
    SortOrder.ofJson?_toJson]

theorem ExportedFile.ofJson?_eq (f : ExportedFile) :
    ofJson? f.toJson = (Json.word? 64 (.nat f.records)).bind fun records => some { f with records } := by
  have slots : f.toJson.slots? fields =
      some [.given (.text f.path), .given (.text f.sha256), .given (.nat f.records)] :=
    Json.slots?_ofFields [("path", _), ("sha256", _), ("records", _)] (by simp)
  rw [ofJson?, slots]
  rfl

theorem ExportedFile.ofJson?_toJson {f : ExportedFile} (bound : f.records < Nat.pow 2 64) :
    ofJson? f.toJson = some f := by
  rw [ofJson?_eq, Json.word?_nat bound, Option.bind_some]

theorem ExportedFile.eq_of_ofJson? {f g : ExportedFile} (read : ofJson? f.toJson = some g) :
    g = f ∧ f.records < Nat.pow 2 64 := by
  rw [ofJson?_eq] at read
  obtain ⟨records, word, same⟩ := Option.bind_eq_some_iff.mp read
  cases same
  obtain ⟨rfl, bound⟩ := Json.word?_nat_eq word
  exact ⟨rfl, bound⟩

theorem Manifest.ofJson?_eq (m : Manifest) :
    ofJson? m.toJson = (Json.signed64? (.integer m.schemaVersion)).bind fun schemaVersion =>
      (Json.list? ExportedFile.ofJson? (.array (m.files.map ExportedFile.toJson))).bind fun files =>
        some { m with schemaVersion, files } := by
  have slots : m.toJson.slots? fields =
      some [.given (.integer m.schemaVersion), .given (.text m.exportedAt),
        .given (.array (m.files.map ExportedFile.toJson))] :=
    Json.slots?_ofFields [("schema_version", _), ("exported_at", _), ("files", _)] (by simp)
  rw [ofJson?, slots]
  rfl

theorem Manifest.ofJson?_toJson {m : Manifest} (version : Json.IsSigned64 m.schemaVersion)
    (bound : ∀ f ∈ m.files, f.records < Nat.pow 2 64) : ofJson? m.toJson = some m := by
  have files := Json.list?_map m.files fun f member => ExportedFile.ofJson?_toJson (bound f member)
  rw [ofJson?_eq, Json.signed64?_integer version, Option.bind_some, files, Option.bind_some]

theorem Manifest.eq_of_ofJson? {m n : Manifest} (read : ofJson? m.toJson = some n) :
    n = m ∧ ∀ f ∈ m.files, f.records < Nat.pow 2 64 := by
  rw [ofJson?_eq] at read
  obtain ⟨version, signed, rest⟩ := Option.bind_eq_some_iff.mp read
  obtain ⟨files, all, same⟩ := Option.bind_eq_some_iff.mp rest
  cases same
  obtain ⟨rfl, bound⟩ := Json.list?_map_eq (fun _ _ => ExportedFile.eq_of_ofJson?) all
  rw [(Json.within?_integer_eq signed).1]
  exact ⟨rfl, bound⟩

end RetirementLedger

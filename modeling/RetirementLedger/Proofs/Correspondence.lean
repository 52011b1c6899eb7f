import RetirementLedger.Proofs.Database.Search
import RetirementLedger.Proofs.Filing
import RetirementLedger.Proofs.Instant

namespace RetirementLedger

structure RetirementView where
  agreementId : String
  reason : String
  nanos : Int
  retiredBy : String
  deriving DecidableEq

def Retirement.view (r : Retirement) : RetirementView :=
  ⟨r.agreementId, r.reason, r.retiredAt.nanos, r.retiredBy⟩

def Receipt.view (receipt : Receipt) : RetirementView × Bool := (receipt.record.view, receipt.wasNew)

structure Retirement.Keeps (r : Retirement) (texts : List String) : Prop where
  dated : ∃ u, Instant.ofUnixMillis? r.retiredAtMillis = some u ∧ u.nanos = r.retiredAt.nanos
  listed : ∀ field : TextField, field.of r ∈ texts

theorem Retirement.Keeps.exists_toRetirement {r : Retirement} {texts : List String}
    (keeps : r.Keeps texts) :
    ∃ s, (Row.ofRetirement r).toRetirement r.agreementId = .ok s ∧ s.view = r.view := by
  obtain ⟨u, read, same⟩ := keeps.dated
  refine ⟨⟨r.agreementId, r.reason, u, r.retiredBy⟩, ?_, ?_⟩
  · simp only [Row.toRetirement, Row.ofRetirement, read]
  · simp only [view, same]

structure Corresponds (texts : List String) (ledger : Ledger) (db : Database) : Prop where
  table : db.table = some (.standard (ledger.records.map Row.ofRetirement))
  records : ∀ id r, ledger.find? id = some r → r.agreementId = id ∧ r.Keeps texts

namespace Corresponds

variable {texts : List String} {ledger : Ledger} {db : Database} {r : Retirement}

theorem fresh (texts : List String) : Corresponds texts .empty .fresh where
  table := Database.table_fresh
  records _ _ held := by cases held

theorem find?_rows (id : String) :
    (ledger.records.map Row.ofRetirement).find? id = (ledger.find? id).map Row.ofRetirement :=
  Catalog.find?_map _ ledger.records id

theorem read (corresponds : Corresponds texts ledger db) {id : String} (held : ledger.find? id = some r) :
    ∃ s, (Row.ofRetirement r).toRetirement id = .ok s ∧ s.view = r.view := by
  obtain ⟨rfl, keeps⟩ := corresponds.records id r held
  exact keeps.exists_toRetirement

theorem find (corresponds : Corresponds texts ledger db) (id : String) :
    (db.find? id).map (·.map Retirement.view) = .ok ((ledger.find? id).map Retirement.view) := by
  rw [Database.find?_eq corresponds.table, find?_rows]
  cases held : ledger.find? id with
  | none => rfl
  | some r =>
      obtain ⟨s, read, same⟩ := corresponds.read held
      simp only [Option.map_some, read, Except.map, same]

theorem made (corresponds : Corresponds texts ledger db) (keeps : r.Keeps texts) :
    Corresponds texts ⟨ledger.records.insert r.agreementId r⟩
      (db.withRows ((ledger.records.map Row.ofRetirement).insert r.agreementId
        (.ofRetirement r))) := by
  constructor
  · rw [Catalog.map_insert]
    rfl
  · intro id other held
    have content : Ledger.find? ⟨ledger.records.insert r.agreementId r⟩ id =
        if id = r.agreementId then some r else ledger.find? id := Catalog.find?_insert ..
    rw [content] at held
    split at held
    · next same =>
        cases held
        exact ⟨same.symm, keeps⟩
    · exact corresponds.records id other held

theorem insert (corresponds : Corresponds texts ledger db) (keeps : r.Keeps texts)
    (id : '\x00' ∉ r.agreementId.toList) (reason : '\x00' ∉ r.reason.toList) :
    (((Database.insert .granted r).run db).1).map Receipt.view =
        (ledger.insert r).1.map Receipt.view ∧
      Corresponds texts (ledger.insert r).2 ((Database.insert .granted r).run db).2 := by
  rw [Database.run_insert corresponds.table, find?_rows]
  unfold Ledger.insert
  cases valid : r.validate with
  | error f => exact ⟨rfl, corresponds⟩
  | ok u =>
      simp only [Database.checkRow_of_validate valid id reason]
      cases held : ledger.find? r.agreementId with
      | some earlier =>
          obtain ⟨s, read, same⟩ := corresponds.read held
          simp only [Option.map_some, read, Except.map, Receipt.view, same]
          exact ⟨trivial, corresponds⟩
      | none =>
          obtain ⟨s, read, same⟩ := keeps.exists_toRetirement
          simp only [Option.map_none, read, Except.map, Receipt.view, same]
          exact ⟨trivial, corresponds.made keeps⟩

theorem mem_values (corresponds : Corresponds texts ledger db) (known : r ∈ ledger.records.values) :
    r.Keeps texts := by
  obtain ⟨id, held⟩ := Catalog.mem_values.mp known
  exact (corresponds.records id r held).2

theorem entries (corresponds : Corresponds texts ledger db) :
    (ledger.records.map Row.ofRetirement).entries =
      ledger.records.values.map Retirement.toEntry := by
  have filed (entry : String × Retirement) (member : entry ∈ ledger.records.entries) :
      (entry.1, Row.ofRetirement entry.2) = entry.2.toEntry := by
    have held : ledger.find? entry.1 = some entry.2 := Catalog.find?_eq_some_iff.mpr member
    rw [Retirement.toEntry, (corresponds.records _ _ held).1]
  change ledger.records.entries.map _ = (ledger.records.entries.map _).map _
  rw [List.map_map]
  exact List.map_congr_left filed

theorem mapM_toRetirement (records : List Retirement) (keeps : ∀ r ∈ records, r.Keeps texts) :
    ∃ stored, (records.map Retirement.toEntry).mapM
        (fun entry => entry.2.toRetirement entry.1) = .ok stored ∧
      stored.map Retirement.view = records.map Retirement.view := by
  induction records with
  | nil => exact ⟨[], rfl, rfl⟩
  | cons r rest ih =>
      obtain ⟨s, read, same⟩ := (keeps r (.head _)).exists_toRetirement
      obtain ⟨others, reads, views⟩ := ih fun r member => keeps r (.tail _ member)
      refine ⟨s :: others, ?_, by rw [List.map_cons, List.map_cons, same, views]⟩
      rw [List.map_cons, List.mapM_cons, reads]
      change ((Row.ofRetirement r).toRetirement r.agreementId >>= _) = _
      rw [read]
      rfl

theorem select (corresponds : Corresponds texts ledger db) {selection : Selection}
    (small : (Select.ofSelection selection).checkSize = .ok ())
    (suits : Select.Suits selection ledger.records.values) :
    (db.select selection).map (·.map Retirement.view) =
      .ok ((ledger.select selection).map Retirement.view) := by
  have keeps (r : Retirement) (found : r ∈ ledger.select selection) : r.Keeps texts :=
    corresponds.mem_values (Selection.mem_of_mem_apply found)
  obtain ⟨stored, reads, views⟩ := mapM_toRetirement (ledger.select selection) keeps
  have table : db.readable (Select.ofSelection selection).sql =
      .ok (ledger.records.map Row.ofRetirement) := by
    simp only [Database.readable, corresponds.table]
  have answer : db.select selection = .ok stored := by
    rw [← reads]
    simp only [Database.select, small, table, bind, Except.bind]
    rw [Select.run_ofSelection_map corresponds.entries suits]
    rfl
  rw [answer, ← views]
  rfl

end Corresponds

end RetirementLedger

import RetirementLedger.Proofs.Database.Migration
import RetirementLedger.Store.Basic

namespace RetirementLedger

theorem Retirement.validate_congr {r s : Retirement} (id : r.agreementId = s.agreementId)
    (reason : r.reason = s.reason) (actor : r.retiredBy = s.retiredBy) :
    r.validate = s.validate := by
  simp only [validate, id, reason, actor]

theorem Retirement.not_blank_of_validate {r : Retirement} (valid : r.validate = .ok ()) :
    Text.isBlankText r.agreementId = false := by
  cases blank : Text.isBlankText r.agreementId with
  | false => rfl
  | true => simp [validate, blank] at valid

namespace Row

theorem toRetirement_eq_ok {id : String} {row : Row} {r : Retirement}
    (read : row.toRetirement id = .ok r) :
    r.agreementId = id ∧ r.reason = row.reason ∧ r.retiredBy = row.retiredBy := by
  obtain ⟨t, -, rfl⟩ := exists_toRetirement read
  exact ⟨rfl, rfl, rfl⟩

end Row

namespace Store

def record? (s : Store) (agreementId : String) : Option Retirement :=
  (s.find? agreementId).toOption.join

def isDatabase : Store → Bool
  | .memory _ => false
  | .database _ => true

def IsCurrent : Store → Prop
  | .memory _ => True
  | .database db => db.recordedVersion = Database.latestVersion ∧
      ∃ rows, db.table = some (.standard rows)

structure Sound (s : Store) : Prop where
  current : s.IsCurrent
  readable : ∀ id, s.find? id = .ok (s.record? id)
  filed : ∀ id r, s.record? id = some r → r.agreementId = id ∧ r.validate = .ok ()

/-- What the store asks of a retirement before it looks for an earlier one. -/
def accept (s : Store) (r : Retirement) : Except Failure Unit :=
  match s with
  | .memory _ => r.validate
  | .database _ => do
    r.validate
    Database.checkRow r.agreementId (.ofRetirement r)

/-- The record that the store makes of a new retirement. -/
def kept (s : Store) (r : Retirement) : Except Failure Retirement :=
  match s with
  | .memory _ => .ok r
  | .database _ => (Row.ofRetirement r).toRetirement r.agreementId

inductive Insertion (s : Store) (r : Retirement) : Except Failure Receipt → Store → Prop
  | refused {f : Failure} (refusal : s.accept r = .error f) : Insertion s r (.error f) s
  | known {earlier : Retirement} (accepted : s.accept r = .ok ())
      (held : s.record? r.agreementId = some earlier) : Insertion s r (.ok ⟨earlier, false⟩) s
  | unkept {f : Failure} (accepted : s.accept r = .ok ()) (free : s.record? r.agreementId = none)
      (loss : s.kept r = .error f) : Insertion s r (.error f) s
  | made {stored : Retirement} {after : Store} (accepted : s.accept r = .ok ())
      (free : s.record? r.agreementId = none) (kept : s.kept r = .ok stored)
      (content : ∀ id, after.record? id =
        if id = r.agreementId then some stored else s.record? id)
      (kind : after.isDatabase = s.isDatabase) :
      Insertion s r (.ok ⟨stored, true⟩) after

theorem validate_of_accept {s : Store} {r : Retirement} (accepted : s.accept r = .ok ()) :
    r.validate = .ok () := by
  cases s with
  | memory ledger => exact accepted
  | database db =>
      cases checked : r.validate with
      | ok u => rfl
      | error f => simp [accept, checked, bind, Except.bind] at accepted

theorem kept_spec {s : Store} {r stored : Retirement} (kept : s.kept r = .ok stored) :
    stored.agreementId = r.agreementId ∧ stored.validate = r.validate := by
  cases s with
  | memory ledger =>
      cases kept
      exact ⟨rfl, rfl⟩
  | database db =>
      obtain ⟨id, reason, actor⟩ := Row.toRetirement_eq_ok kept
      exact ⟨id, Retirement.validate_congr id reason actor⟩

theorem Sound.made {s after : Store} (sound : s.Sound) {r stored : Retirement}
    (accepted : s.accept r = .ok ()) (kept : s.kept r = .ok stored)
    (found : ∀ id, after.find? id =
      if id = r.agreementId then .ok (some stored) else s.find? id)
    (current : after.IsCurrent) :
    after.Sound ∧ ∀ id, after.record? id =
      if id = r.agreementId then some stored else s.record? id := by
  have content (id : String) : after.record? id =
      if id = r.agreementId then some stored else s.record? id := by
    by_cases same : id = r.agreementId <;> simp [record?, found, same, Except.toOption]
  refine ⟨⟨current, ?_, ?_⟩, content⟩
  · intro id
    rw [content, found]
    split
    · rfl
    · exact sound.readable id
  · intro id held eq
    rw [content] at eq
    split at eq
    · next same =>
        cases eq
        obtain ⟨filed, valid⟩ := kept_spec kept
        exact ⟨filed.trans same.symm, valid.trans (validate_of_accept accepted)⟩
    · exact sound.filed id held eq

theorem sound_empty : (memory .empty).Sound :=
  ⟨trivial, fun _ => rfl, fun _ _ held => by cases held⟩

theorem sound_fresh : (database Database.fresh).Sound := by
  have find (id : String) : (database Database.fresh).find? id = .ok none :=
    Database.find?_eq Database.table_fresh id
  refine ⟨⟨Database.recordedVersion_fresh, _, Database.table_fresh⟩, ?_, ?_⟩
  · intro id
    simp [record?, find, Except.toOption]
  · intro id r held
    simp [record?, find, Except.toOption] at held

private theorem insert_memory {ledger : Ledger} (sound : (memory ledger).Sound) (r : Retirement) :
    Insertion (memory ledger) r ((memory ledger).insert r).1 ((memory ledger).insert r).2 ∧
      ((memory ledger).insert r).2.Sound := by
  have insert : (memory ledger).insert r =
      ((ledger.insert r).1, memory (ledger.insert r).2) := rfl
  rw [insert]
  unfold Ledger.insert
  cases valid : r.validate with
  | error f => exact ⟨.refused valid, sound⟩
  | ok u =>
      cases held : ledger.find? r.agreementId with
      | some earlier => exact ⟨.known valid held, sound⟩
      | none =>
          have found (id : String) :
              (memory ⟨ledger.records.insert r.agreementId r⟩).find? id =
                if id = r.agreementId then .ok (some r) else (memory ledger).find? id := by
            simp only [find?, Ledger.find?, Catalog.find?_insert]
            split <;> rfl
          obtain ⟨sound', content⟩ := sound.made valid rfl found trivial
          exact ⟨.made valid held rfl content rfl, sound'⟩

private theorem insert_database {db : Database} (sound : (database db).Sound) (r : Retirement) :
    Insertion (database db) r ((database db).insert r).1 ((database db).insert r).2 ∧
      ((database db).insert r).2.Sound := by
  obtain ⟨current, rows, table⟩ := sound.current
  have insert : (database db).insert r =
      (((Database.insert .granted r).run db).1,
        database ((Database.insert .granted r).run db).2) := rfl
  rw [insert, Database.run_insert table]
  cases valid : r.validate with
  | error f => exact ⟨.refused (by simp [accept, valid, bind, Except.bind]), sound⟩
  | ok u =>
      cases checked : Database.checkRow r.agreementId (.ofRetirement r) with
      | error f => exact ⟨.refused (by simp [accept, valid, checked, bind, Except.bind]), sound⟩
      | ok u =>
          have accepted : (database db).accept r = .ok () := by
            simp [accept, valid, checked, bind, Except.bind]
          have found : (database db).find? r.agreementId = _ := Database.find?_eq table r.agreementId
          rw [sound.readable] at found
          cases known : rows.find? r.agreementId with
          | some row =>
              simp only [known] at found ⊢
              -- The row that is there can be read back, since the store is sound.
              cases read : row.toRetirement r.agreementId with
              | error f => simp [read, Except.map] at found
              | ok earlier =>
                  have held : (database db).record? r.agreementId = some earlier := by
                    simpa [read, Except.map] using found
                  exact ⟨.known accepted held, sound⟩
          | none =>
              have free : (database db).record? r.agreementId = none := by
                simpa [known] using found
              cases kept : (Row.ofRetirement r).toRetirement r.agreementId with
              | error f => exact ⟨.unkept accepted free kept, sound⟩
              | ok stored =>
                  have content (id : String) : find? (database (db.withRows
                      (rows.insert r.agreementId (.ofRetirement r)))) id =
                      if id = r.agreementId then .ok (some stored) else (database db).find? id := by
                    rw [find?, Database.find?_withRows_insert table, kept]
                    rfl
                  obtain ⟨sound', content⟩ :=
                    sound.made accepted kept content ⟨current, _, rfl⟩
                  exact ⟨.made accepted free kept content rfl, sound'⟩

theorem insert_spec {s : Store} (sound : s.Sound) (r : Retirement) :
    Insertion s r (s.insert r).1 (s.insert r).2 ∧ (s.insert r).2.Sound := by
  cases s with
  | memory ledger => exact insert_memory sound r
  | database db => exact insert_database sound r

end Store

end RetirementLedger

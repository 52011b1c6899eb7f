import RetirementLedger.Proofs.Snapshot.Import
import RetirementLedger.Proofs.System.Basic

namespace RetirementLedger

namespace Catalog

variable {α : Type}

theorem fill_of_perm (c : Catalog α) {entries others : List (String × α)} (perm : entries.Perm others)
    (distinct : (entries.map (·.1)).Nodup) : c.fill entries = c.fill others := by
  refine ext_find? fun name => ?_
  have same : entries.lookup name = others.lookup name := by
    ext value
    rw [lookup_eq_some_iff distinct, lookup_eq_some_iff ((perm.map _).nodup_iff.mp distinct)]
    exact perm.mem_iff
  rw [find?_fill, find?_fill, same]

end Catalog

namespace Store

def fill (s : Store) (records : List Retirement) : Store :=
  match s with
  | .memory ledger => .memory ⟨ledger.records.fill (records.map fun r => (r.agreementId, r))⟩
  | .database db =>
    match db.table with
    | some (.standard rows) => .database (db.withRows (rows.fill (records.map Row.entry)))
    | _ => s

def admits (s : Store) (r : Retirement) : Bool := (s.accept r).isOk && (s.kept r).isOk

variable {s : Store} {r : Retirement}

theorem fill_nil (current : s.IsCurrent) : s.fill [] = s := by
  cases s with
  | memory ledger => rfl
  | database db =>
      obtain ⟨-, rows, table⟩ := current
      simp only [fill, table]
      exact congrArg _ (Database.withRows_self table)

theorem fill_cons (current : s.IsCurrent) (r : Retirement) (rest : List Retirement) :
    s.fill (r :: rest) = (s.fill [r]).fill rest := by
  cases s with
  | memory ledger => rfl
  | database db =>
      obtain ⟨-, rows, table⟩ := current
      simp only [fill, table]
      rfl

theorem fill_of_perm (s : Store) {records others : List Retirement} (perm : records.Perm others)
    (distinct : (records.map (·.agreementId)).Nodup) : s.fill records = s.fill others := by
  have names {α : Type} (f : Retirement → α) :
      ((records.map fun r => (r.agreementId, f r)).map (·.1)).Nodup := by rwa [List.map_map]
  cases s with
  | memory ledger =>
      simp only [fill]
      rw [Catalog.fill_of_perm _ (perm.map _) (names fun r => r)]
  | database db =>
      simp only [fill]
      split
      · rw [Catalog.fill_of_perm _ (perm.map Row.entry) (names Row.ofRetirement)]
      · rfl

theorem insert_eq_fill (current : s.IsCurrent) (r : Retirement) :
    (s.insert r).2 = if s.admits r then s.fill [r] else s := by
  cases s with
  | memory ledger =>
      change memory (ledger.insert r).2 = _
      unfold Ledger.insert admits accept kept fill
      cases r.validate with
      | error f => rfl
      | ok u =>
          cases held : ledger.find? r.agreementId with
          | some earlier =>
              have full := Catalog.fill_of_known held r
              simp [Except.isOk, Except.toBool, full]
          | none =>
              have filled := Catalog.fill_of_free held r
              simp [Except.isOk, Except.toBool, filled]
  | database db =>
      obtain ⟨-, rows, table⟩ := current
      change database ((Database.insert .granted r).run db).2 = _
      rw [Database.run_insert table]
      unfold admits accept kept fill
      simp only [table]
      cases r.validate with
      | error f => rfl
      | ok u =>
          cases Database.checkRow r.agreementId (.ofRetirement r) with
          | error f => rfl
          | ok u =>
              cases held : rows.find? r.agreementId with
              | some earlier =>
                  have full := Catalog.fill_of_known held (Row.ofRetirement r)
                  cases (Row.ofRetirement r).toRetirement r.agreementId with
                  | error f => rfl
                  | ok stored =>
                      change database db = database (db.withRows (rows.fill [(r.agreementId, _)]))
                      rw [full, Database.withRows_self table]
              | none =>
                  have filled := Catalog.fill_of_free held (Row.ofRetirement r)
                  cases (Row.ofRetirement r).toRetirement r.agreementId with
                  | error f => rfl
                  | ok stored =>
                      change _ = database (db.withRows (rows.fill [(r.agreementId, _)]))
                      rw [filled]

theorem admits_fill (s : Store) (records : List Retirement) : (s.fill records).admits = s.admits := by
  cases s with
  | memory ledger => rfl
  | database db =>
      unfold fill
      dsimp only
      split <;> rfl

end Store

namespace System

variable {s : System}

def admits (s : System) (r : Retirement) : Bool :=
  (s.service.store.insertFault r.agreementId).isNone && s.store.admits r

def insertions (records : List Retirement) : List Act := records.map fun r => .traffic (.insert r)

theorem step_insert (current : s.store.IsCurrent) (r : Retirement) :
    (s.step (.traffic (.insert r))).store = s.store.fill (if s.admits r then [r] else []) ∧
      (s.step (.traffic (.insert r))).service.store.faults = s.service.store.faults := by
  change (s.service.store.insert r).2.store = _ ∧ (s.service.store.insert r).2.faults = _
  unfold admits FaultyStore.insert
  cases s.service.store.insertFault r.agreementId with
  | some reply => exact ⟨(Store.fill_nil current).symm, rfl⟩
  | none =>
      refine ⟨?_, rfl⟩
      change (s.store.insert r).2 = _
      rw [Store.insert_eq_fill current r, Option.isNone_none, Bool.true_and]
      split
      · rfl
      · exact (Store.fill_nil current).symm

theorem store_run_insertions (reachable : s.Reachable) (records : List Retirement) :
    (s.run (insertions records)).store = s.store.fill (records.filter s.admits) := by
  induction records generalizing s with
  | nil => exact (Store.fill_nil reachable.recorded.sound.current).symm
  | cons r rest ih =>
      have current := reachable.recorded.sound.current
      obtain ⟨store, faults⟩ := step_insert current r
      have same : (s.step (.traffic (.insert r))).admits = s.admits := by
        funext other
        unfold admits FaultyStore.insertFault
        rw [faults, store, Store.admits_fill]
      change ((s.step (.traffic (.insert r))).run (insertions rest)).store = _
      have later : (s.step (.traffic (.insert r))).Reachable := reachable.run [.traffic (.insert r)]
      rw [ih later, same, store, List.filter_cons]
      split
      · exact (Store.fill_cons current r _).symm
      · rw [Store.fill_nil current]

/-- Whatever order retirements of different agreements are inserted in, the store comes out the same. -/
theorem store_run_insertions_of_perm (reachable : s.Reachable) {records others : List Retirement}
    (perm : records.Perm others) (distinct : (records.map (·.agreementId)).Nodup) :
    (s.run (insertions records)).store = (s.run (insertions others)).store := by
  rw [store_run_insertions reachable, store_run_insertions reachable]
  exact Store.fill_of_perm _ (perm.filter _) (List.Nodup.sublist (List.filter_sublist.map _) distinct)

end System

end RetirementLedger

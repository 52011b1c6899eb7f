import RetirementLedger.Proofs.Database.Stages
import RetirementLedger.Proofs.Instant
import RetirementLedger.Proofs.Snapshot.Import

namespace RetirementLedger

theorem Row.lookup_map_entry (records : List Retirement) (id : String) :
    (records.map entry).lookup id =
      (records.find? fun r => r.agreementId = id).map ofRetirement := by
  induction records with
  | nil => rfl
  | cons r records ih =>
      rw [List.map_cons, Catalog.lookup_cons_ite, List.find?_cons, ih]
      by_cases same : r.agreementId = id
      · simp [same, entry]
      · simp [same, Ne.symm same, entry]

namespace Database

variable {db after : Database} {rows : Catalog Row} {r : Retirement} {records : List Retirement}

structure Settled (rows : Catalog Row) (r : Retirement) : Prop where
  valid : r.validate = .ok ()
  checked : checkRow r.agreementId (.ofRetirement r) = .ok ()
  held : ∃ row stored, rows.find? r.agreementId = some row ∧
    row.toRetirement r.agreementId = .ok stored

theorem Settled.fill (settled : Settled rows r) (entries : List (String × Row)) :
    Settled (rows.fill entries) r := by
  obtain ⟨row, stored, held, read⟩ := settled.held
  refine ⟨settled.valid, settled.checked, row, stored, ?_, read⟩
  rw [Catalog.find?_fill, held, Option.some_or]

theorem table_of_writable (written : db.writable = .ok rows) : db.table = some (.standard rows) := by
  unfold writable at written
  split at written
  · cases written
  · next table =>
      cases written
      exact table
  · cases written

theorem run_insertIn_unwritable {f : Failure} (unwritable : db.writable = .error f) (r : Retirement) :
    ∃ g, (insertIn r).run db = (.error g, db) := by
  unfold insertIn putRow
  simp only [run_bind, run_lift, run_get]
  cases r.validate with
  | error g => exact ⟨g, rfl⟩
  | ok u => exact ⟨f, by simp only [unwritable]⟩

theorem writable_cases (db : Database) :
    (∃ f, db.writable = .error f) ∨ ∃ rows, db.table = some (.standard rows) := by
  cases written : db.writable with
  | error f => exact .inl ⟨f, rfl⟩
  | ok rows => exact .inr ⟨rows, table_of_writable written⟩

theorem standard_of_run_insertIn {receipt : Receipt}
    (done : (insertIn r).run db = (.ok receipt, after)) :
    ∃ rows, db.table = some (.standard rows) := by
  rcases db.writable_cases with ⟨f, unwritable⟩ | standard
  · obtain ⟨g, failed⟩ := run_insertIn_unwritable unwritable r
    cases failed.symm.trans done
  · exact standard

def standing (rows : Catalog Row) (r : Retirement) : Row :=
  (rows.find? r.agreementId).getD (.ofRetirement r)

theorem find?_fill_entry (rows : Catalog Row) (r : Retirement) :
    (rows.fill [Row.entry r]).find? r.agreementId = some (standing rows r) := by
  rw [Catalog.find?_fill, standing]
  cases rows.find? r.agreementId with
  | some row => rfl
  | none => simp [Row.entry]

theorem run_insertIn_accepted (table : db.table = some (.standard rows)) (accepted : accept r = .ok ()) :
    (insertIn r).run db =
      (((standing rows r).toRetirement r.agreementId).map (⟨·, (rows.find? r.agreementId).isNone⟩),
        db.withRows (rows.fill [Row.entry r])) := by
  obtain ⟨valid, checked⟩ := accept_eq_ok_iff.mp accepted
  rw [run_insertIn table, valid, checked, standing, Row.entry]
  cases known : rows.find? r.agreementId with
  | some row =>
      rw [Catalog.fill_of_known known, withRows_self table]
      rfl
  | none =>
      rw [Catalog.fill_of_free known]
      rfl

theorem accept_of_run_insertIn (table : db.table = some (.standard rows)) {receipt : Receipt}
    (done : (insertIn r).run db = (.ok receipt, after)) : accept r = .ok () := by
  cases checks : accept r with
  | error f => cases (run_insertIn_refused table checks).symm.trans done
  | ok u => rfl

theorem read_of_run_insertIn (table : db.table = some (.standard rows)) {receipt : Receipt}
    (done : (insertIn r).run db = (.ok receipt, after)) :
    (standing rows r).toRetirement r.agreementId = .ok receipt.record ∧
      receipt.wasNew = (rows.find? r.agreementId).isNone ∧
      after = db.withRows (rows.fill [Row.entry r]) := by
  rw [run_insertIn_accepted table (accept_of_run_insertIn table done)] at done
  cases read : (standing rows r).toRetirement r.agreementId with
  | error f =>
      rw [read] at done
      cases done
  | ok stored =>
      rw [read] at done
      cases done
      exact ⟨rfl, rfl, rfl⟩

theorem settled_of_run_insertIn (table : db.table = some (.standard rows)) {receipt : Receipt}
    (done : (insertIn r).run db = (.ok receipt, after)) :
    after = db.withRows (rows.fill [Row.entry r]) ∧ Settled (rows.fill [Row.entry r]) r := by
  obtain ⟨valid, checked⟩ := accept_eq_ok_iff.mp (accept_of_run_insertIn table done)
  obtain ⟨read, -, added⟩ := read_of_run_insertIn table done
  exact ⟨added, valid, checked, _, _, find?_fill_entry rows r, read⟩

theorem run_insertIn_settled (table : db.table = some (.standard rows)) (settled : Settled rows r) :
    ∃ receipt, receipt.wasNew = false ∧ (insertIn r).run db = (.ok receipt, db) := by
  obtain ⟨row, stored, held, read⟩ := settled.held
  refine ⟨⟨stored, false⟩, rfl, ?_⟩
  rw [run_insertIn table, settled.valid, settled.checked, held]
  dsimp only
  rw [read]
  rfl

theorem run_mapM_insertIn_cons_eq_ok {receipts : List Receipt} :
    ((r :: records).mapM insertIn).run db = (.ok receipts, after) ↔
      ∃ receipt next others, (insertIn r).run db = (.ok receipt, next) ∧
        (records.mapM insertIn).run next = (.ok others, after) ∧ receipts = receipt :: others := by
  simp only [List.mapM_cons, run_bind_eq_ok, run_pure]
  constructor
  · rintro ⟨receipt, next, first, others, last, rest, same⟩
    cases same
    exact ⟨receipt, next, others, first, rest, rfl⟩
  · rintro ⟨receipt, next, others, first, rest, rfl⟩
    exact ⟨receipt, next, first, others, after, rest, rfl⟩

theorem settled_of_run_mapM (table : db.table = some (.standard rows)) {receipts : List Receipt}
    (done : (records.mapM insertIn).run db = (.ok receipts, after)) :
    receipts.length = records.length ∧
      after = db.withRows (rows.fill (records.map Row.entry)) ∧
      ∀ r ∈ records, Settled (rows.fill (records.map Row.entry)) r := by
  induction records generalizing db rows receipts with
  | nil =>
      cases done
      exact ⟨rfl, (withRows_self table).symm, List.forall_mem_nil _⟩
  | cons r records ih =>
      obtain ⟨receipt, next, receipts, first, others, rfl⟩ := run_mapM_insertIn_cons_eq_ok.mp done
      obtain ⟨rfl, settled⟩ := settled_of_run_insertIn table first
      obtain ⟨count, same, more⟩ := ih rfl others
      exact ⟨congrArg (· + 1) count, same, List.forall_mem_cons.mpr ⟨settled.fill _, more⟩⟩

theorem run_mapM_insertIn_settled (table : db.table = some (.standard rows))
    (settled : ∀ r ∈ records, Settled rows r) :
    ∃ receipts, receipts.length = records.length ∧ (∀ receipt ∈ receipts, receipt.wasNew = false) ∧
      (records.mapM insertIn).run db = (.ok receipts, db) := by
  induction records with
  | nil => exact ⟨[], rfl, List.forall_mem_nil _, rfl⟩
  | cons r records ih =>
      obtain ⟨first, more⟩ := List.forall_mem_cons.mp settled
      obtain ⟨receipt, known, one⟩ := run_insertIn_settled table first
      obtain ⟨receipts, count, knowns, others⟩ := ih more
      exact ⟨receipt :: receipts, congrArg (· + 1) count, List.forall_mem_cons.mpr ⟨known, knowns⟩,
        run_mapM_insertIn_cons_eq_ok.mpr ⟨receipt, db, receipts, one, others, rfl⟩⟩

theorem standard_of_run_mapM {receipts : List Receipt}
    (done : (records.mapM insertIn).run db = (.ok receipts, after)) :
    records = [] ∧ receipts = [] ∧ after = db ∨ ∃ rows, db.table = some (.standard rows) := by
  cases records with
  | nil =>
      cases done
      exact .inl ⟨rfl, rfl, rfl⟩
  | cons r records =>
      obtain ⟨receipt, next, others, first, -⟩ := run_mapM_insertIn_cons_eq_ok.mp done
      exact .inr (standard_of_run_insertIn first)

theorem run_mapM_insertIn_again {receipts : List Receipt}
    (done : (records.mapM insertIn).run db = (.ok receipts, after)) :
    after.recordedVersion = db.recordedVersion ∧ receipts.length = records.length ∧
      ∃ again, again.length = records.length ∧ (∀ receipt ∈ again, receipt.wasNew = false) ∧
        (records.mapM insertIn).run after = (.ok again, after) := by
  rcases standard_of_run_mapM done with ⟨rfl, rfl, rfl⟩ | ⟨rows, table⟩
  · exact ⟨rfl, rfl, [], rfl, List.forall_mem_nil _, rfl⟩
  · obtain ⟨count, rfl, settled⟩ := settled_of_run_mapM table done
    exact ⟨rfl, count, run_mapM_insertIn_settled rfl settled⟩

theorem run_mapM_of_insertAll {access : WriteAccess} {receipts : List Receipt}
    (done : (insertAll access records).run db = (.ok receipts, after)) :
    (records.mapM insertIn).run db = (.ok receipts, after) ∧
      ∀ {db' after' : Database} {receipts' : List Receipt},
        (records.mapM insertIn).run db' = (.ok receipts', after') →
        (insertAll access records).run db' = (.ok receipts', after') := by
  by_cases tried : access ≠ .denied ∨ records = []
  · rw [insertAll_eq_transaction tried] at done ⊢
    by_cases locked : access = .locked
    · simp only [locked, decide_true] at done
      cases done
    · simp only [locked, decide_false] at done ⊢
      change (transact (records.mapM insertIn)).run db = _ at done
      constructor
      · rw [run_transact] at done
        rcases run : (records.mapM insertIn).run db with ⟨f | receipts, next⟩
        · rw [run] at done
          cases done
        · rw [run] at done
          exact done
      · intro db' after' receipts' run
        change (transact (records.mapM insertIn)).run db' = _
        rw [run_transact, run]
  · obtain ⟨denied, nonempty⟩ := not_or.mp tried
    obtain ⟨r, rest, rfl⟩ := List.exists_cons_of_ne_nil nonempty
    rw [Classical.not_not.mp denied] at done
    obtain ⟨f, failed⟩ := run_insertAll_denied r rest db
    cases failed.symm.trans done

def row? (db : Database) (id : String) : Option Row :=
  match db.contents with
  | .standard rows => rows.find? id
  | .foreign _ _ _ => none

/-- Every row is kept, and each agreement without one has got that of the first of the retirements that
is its own. It is read back in UTC and to the millisecond, cut towards the epoch. -/
structure Added (before : Database) (records : List Retirement) (after : Database) : Prop where
  rows : ∀ id, after.row? id =
    (before.row? id).or ((records.find? fun r => r.agreementId = id).map Row.ofRetirement)
  foreign : ∀ columns count row, before.contents = .foreign columns count row →
    after.contents = before.contents
  kept : ∀ id, (before.row? id).isSome → after.find? id = before.find? id
  made : ∀ id r, before.row? id = none → (records.find? fun r => r.agreementId = id) = some r →
    ∃ t : Instant, t.nanos = r.retiredAt.nanos.tdiv milliNanos * milliNanos ∧ t.offset = 0 ∧
      after.find? id = .ok (some { r with retiredAt := t })

theorem row?_eq (table : db.table = some (.standard rows)) (id : String) :
    db.row? id = rows.find? id := by
  rw [row?, contents, table]
  rfl

theorem added_nil (db : Database) : Added db [] db where
  rows id := (Option.or_none).symm
  foreign columns count row held := rfl
  kept id held := rfl
  made id r free found := by cases found

theorem added_of_run_mapM {receipts : List Receipt}
    (done : (records.mapM insertIn).run db = (.ok receipts, after)) : Added db records after := by
  rcases standard_of_run_mapM done with ⟨rfl, -, rfl⟩ | ⟨rows, table⟩
  · exact added_nil _
  · obtain ⟨-, rfl, settled⟩ := settled_of_run_mapM table done
    have rowAfter (id : String) : (db.withRows (rows.fill (records.map Row.entry))).row? id =
        (db.row? id).or ((records.find? fun r => r.agreementId = id).map Row.ofRetirement) := by
      rw [row?_eq rfl, row?_eq table, Catalog.find?_fill, Row.lookup_map_entry]
    refine ⟨rowAfter, fun columns count row held => ?_, fun id held => ?_, fun id r free found => ?_⟩
    · rw [contents, table] at held
      cases held
    · obtain ⟨row, known⟩ := Option.isSome_iff_exists.mp held
      rw [row?_eq table] at known
      rw [find?_eq rfl, find?_eq table, Catalog.find?_fill, known, Option.some_or]
    · obtain rfl : r.agreementId = id := by simpa using List.find?_some found
      obtain ⟨row, stored, held, read⟩ := (settled r (List.mem_of_find?_eq_some found)).held
      have own := rowAfter r.agreementId
      rw [row?_eq rfl, held, free, found] at own
      cases own
      obtain ⟨t, stamp, rfl⟩ := Row.exists_toRetirement read
      obtain ⟨nanos, offset⟩ := Instant.of?_eq_some stamp
      refine ⟨t, nanos, offset, ?_⟩
      rw [find?_eq rfl, held]
      dsimp only
      rw [read]
      rfl

theorem find?_congr {other : Database} (table : other.table = db.table) (id : String) :
    other.find? id = db.find? id := by
  simp only [find?, readable, table]

theorem row?_congr {other : Database} (contents : other.contents = db.contents) (id : String) :
    other.row? id = db.row? id := by
  simp only [row?, contents]

end Database

end RetirementLedger

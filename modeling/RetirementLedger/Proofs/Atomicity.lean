import RetirementLedger.Administration
import RetirementLedger.Proofs.Database.File
import RetirementLedger.Proofs.Database.Script
import RetirementLedger.Proofs.RetireCall

namespace RetirementLedger

namespace Database

variable {db : Database} {rows : Catalog Row} {r : Retirement}

inductive Insertion (db : Database) (r : Retirement) : Except Failure Receipt → Database → Prop
  | failed (f : Failure) : Insertion db r (.error f) db
  | known {stored : Retirement} (held : db.find? r.agreementId = .ok (some stored)) :
      Insertion db r (.ok ⟨stored, false⟩) db
  | made {rows : Catalog Row} {t : Instant} {after : Database}
      (table : db.table = some (.standard rows)) (free : rows.find? r.agreementId = none)
      (added : after = db.withRows (rows.insert r.agreementId (.ofRetirement r)))
      (nanos : t.nanos = r.retiredAt.nanos.tdiv milliNanos * milliNanos) (offset : t.offset = 0)
      (held : after.find? r.agreementId = .ok (some { r with retiredAt := t })) :
      Insertion db r (.ok ⟨{ r with retiredAt := t }, true⟩) after

theorem insert_cases (access : WriteAccess) (db : Database) (r : Retirement) :
    (∃ f, (insert access r).run db = (.error f, db)) ∨
      access = .granted ∧ ∃ receipt after,
        (insert access r).run db = (.ok receipt, after) ∧ (insertIn r).run db = (.ok receipt, after) := by
  cases access with
  | granted =>
      rw [run_insert_granted, run_transact]
      rcases (insertIn r).run db with ⟨f | receipt, after⟩
      · exact .inl ⟨f, rfl⟩
      · exact .inr ⟨rfl, receipt, after, rfl, rfl⟩
  | locked =>
      left
      simp only [insert, run_bind, run_lift]
      cases r.validate with
      | error f => exact ⟨f, rfl⟩
      | ok u => exact ⟨lockedFailure, rfl⟩
  | denied =>
      obtain ⟨f, refused⟩ := run_validate_refuseWriting r db
      exact .inl ⟨f, refused _⟩

theorem insertion_of_run_insertIn {receipt : Receipt} {after : Database}
    (done : (insertIn r).run db = (.ok receipt, after)) : Insertion db r (.ok receipt) after := by
  obtain ⟨rows, table⟩ := standard_of_run_insertIn done
  obtain ⟨read, wasNew, rfl⟩ := read_of_run_insertIn table done
  obtain ⟨record, new⟩ := receipt
  cases wasNew
  unfold standing at read
  cases known : rows.find? r.agreementId with
  | some row =>
      rw [known] at read
      rw [Row.entry, Catalog.fill_of_known known, withRows_self table]
      refine .known ?_
      simp only [find?_eq table, known]
      exact congrArg (Except.map some) read
  | none =>
      rw [known] at read
      rw [Row.entry, Catalog.fill_of_free known]
      obtain ⟨t, stamp, rfl⟩ := Row.exists_toRetirement read
      obtain ⟨nanos, offset⟩ := Instant.of?_eq_some stamp
      refine .made table known rfl nanos offset ?_
      rw [find?_withRows_insert table, if_pos rfl]
      exact congrArg (Except.map some) read

theorem insertion_of_run_insert (access : WriteAccess) (db : Database) (r : Retirement) :
    Insertion db r ((insert access r).run db).1 ((insert access r).run db).2 := by
  rcases insert_cases access db r with ⟨f, failed⟩ | ⟨-, receipt, after, done, written⟩
  · rw [failed]
    exact .failed f
  · rw [done]
    exact insertion_of_run_insertIn written

theorem insert_eq_ok_iff (access : WriteAccess) (db : Database) (r : Retirement) :
    (∃ receipt after, (insert access r).run db = (.ok receipt, after)) ↔
      access = .granted ∧ accept r = .ok () ∧ ∃ rows, db.table = some (.standard rows) ∧
        ∃ stored, (standing rows r).toRetirement r.agreementId = .ok stored := by
  constructor
  · rintro ⟨receipt, after, done⟩
    rcases insert_cases access db r with ⟨f, failed⟩ | ⟨granted, receipt', after', -, written⟩
    · cases failed.symm.trans done
    · obtain ⟨rows, table⟩ := standard_of_run_insertIn written
      exact ⟨granted, accept_of_run_insertIn table written, rows, table, _,
        (read_of_run_insertIn table written).1⟩
  · rintro ⟨rfl, accepted, rows, table, stored, read⟩
    rw [run_insert_granted, run_transact, run_insertIn_accepted table accepted, read]
    exact ⟨_, _, rfl⟩

theorem run_insert_unread (table : db.table = some (.standard rows)) (accepted : accept r = .ok ())
    (free : rows.find? r.agreementId = none) (unread : Instant.ofUnixMillis? r.retiredAtMillis = none) :
    (insertIn r).run db = (.error (Instant.millisFailure r.retiredAtMillis),
        db.withRows (rows.insert r.agreementId (.ofRetirement r))) ∧
      (insert .granted r).run db = (.error (Instant.millisFailure r.retiredAtMillis), db) := by
  have read : (standing rows r).toRetirement r.agreementId =
      .error (Instant.millisFailure r.retiredAtMillis) := by
    simp only [standing, free, Option.getD_none, Row.ofRetirement, Row.toRetirement, unread]
  have written := run_insertIn_accepted table accepted
  rw [read, Row.entry, Catalog.fill_of_free free] at written
  refine ⟨written, ?_⟩
  rw [run_insert_granted, run_transact, written]
  rfl

end Database

namespace Disk
open Database

variable {disk : Disk} {p : Place} {address : DatabaseAddress} {path : String} {use : FileUse} {db : Database}

theorem insertion_of_run_storeFile_insert (named : Location.ofName? address.name = some (.file path use))
    (placed : disk.databasePlace? path = some p) (stored : disk.stored? p = some db) (r : Retirement) :
    ∃ after, ((StoreFile.insert address r).run disk).2.stored? p = some after ∧
      Insertion db r ((StoreFile.insert address r).run disk).1 after := by
  rcases run_onRecords named placed stored (fun access => Database.insert access r) with
    ⟨f, after, run, kept⟩ | ⟨access, after, run, kept⟩
  · rw [StoreFile.insert, run]
    exact ⟨db, kept, .failed f⟩
  · rw [StoreFile.insert, run]
    refine ⟨_, kept, ?_⟩
    rcases insert_cases access db r with ⟨f, failed⟩ | ⟨rfl, receipt, next, done, written⟩
    · simp only [failed, ite_self]
      exact .failed f
    · simp only [done]
      exact insertion_of_run_insertIn written

theorem run_onRecords_execute {α : Type} (named : Location.ofName? address.name = some (.file path use))
    (placed : disk.databasePlace? path = some p) (stored : disk.stored? p = some db) (script : Script α) :
    (∃ f after, (onRecords address fun access => script.execute access).run disk = (.error f, after) ∧
        after.stored? p = some db) ∨
      ∃ access after,
        (onRecords address fun access => script.execute access).run disk =
            ((script.outcome access db).1, after) ∧
          after.stored? p = some (script.outcome access db).2 := by
  rcases run_onRecords named placed stored (fun access => script.execute access) with
    failed | ⟨access, after, run, kept⟩
  · exact .inl failed
  · rw [Script.run_execute] at run kept
    refine .inr ⟨access, after, run, kept.trans (congrArg some ?_)⟩
    split
    · next denied => rw [denied, Script.outcome_denied]
    · rfl

end Disk

namespace RetireCall

/-- The call after steps of its own, each of which finds the service as others have left it. -/
def along (call : RetireCall) (services : List Service) : RetireCall :=
  services.foldl (fun call s => (call.step s).1) call

theorem along_done (reply : Reply Receipt) (services : List Service) :
    (done reply).along services = .done reply := by
  induction services with
  | nil => rfl
  | cons s services ih => exact ih

theorem step_announces (call : RetireCall) (s : Service) :
    (call.step s).2.delivered = s.delivered ∧ (call.step s).2.auditFailures = s.auditFailures ∨
      ∃ receipt, (call.step s).1 = .done (.ok receipt) := by
  rcases call.service_step s with ⟨receipt, rfl⟩ | ⟨holdings, same⟩
  · exact .inr ⟨receipt, rfl⟩
  · exact .inl (same ▸ ⟨rfl, rfl⟩)

theorem quiet_of_along {call : RetireCall} {earlier later : List Service} {s : Service} {reply : Reply Receipt}
    (ended : call.along (earlier ++ s :: later) = .done reply) (failure : reply.receipt? = none) :
    ((call.along earlier).step s).2.delivered = s.delivered ∧
      ((call.along earlier).step s).2.auditFailures = s.auditFailures := by
  rcases step_announces (call.along earlier) s with quiet | ⟨receipt, answered⟩
  · exact quiet
  · have whole : call.along (earlier ++ s :: later) = ((call.along earlier).step s).1.along later := by
      simp only [along, List.foldl_append, List.foldl_cons]
    rw [whole, answered, along_done] at ended
    cases ended
    cases failure

end RetireCall

theorem Store.insert_failed {s : Store} {r : Retirement} {f : Failure} (failed : (s.insert r).1 = .error f) :
    (s.insert r).2 = s := by
  cases s with
  | memory ledger =>
      simp only [insert, Ledger.insert] at failed ⊢
      cases valid : r.validate with
      | error g => rfl
      | ok u =>
          rw [valid] at failed
          cases known : ledger.find? r.agreementId with
          | some earlier => rfl
          | none =>
              simp only [known] at failed
              cases failed
  | database db =>
      simp only [insert] at failed ⊢
      rcases Database.insert_cases .granted db r with ⟨g, run⟩ | ⟨-, receipt, after, run, -⟩
      · exact congrArg (fun reply => database reply.2) run
      · cases (congrArg Prod.fst run).symm.trans failed

namespace Service

theorem insert_failed {s : Service} {r : Retirement} (failure : (s.insert r).1.receipt? = none) :
    (s.insert r).2 = s := by
  unfold insert FaultyStore.insert at failure ⊢
  cases struck : s.store.insertFault r.agreementId with
  | some reply => rfl
  | none =>
      rw [struck] at failure
      cases answer : (s.store.store.insert r).1 with
      | ok receipt =>
          simp only [answer] at failure
          cases failure
      | error f =>
          have unchanged := Store.insert_failed answer
          simp only [unchanged]

theorem retire_failed {s : Service} {agreementId reason actor : String}
    (failure : (s.retire agreementId reason actor).1.receipt? = none) :
    (s.retire agreementId reason actor).2 = s := by
  rw [retire_eq] at failure ⊢
  cases valid : (Retirement.create agreementId reason actor s.clock).validate with
  | error f => rfl
  | ok u =>
      rw [valid] at failure
      have unchanged := insert_failed failure
      simp only [unchanged]
      cases answer : (s.insert (.create agreementId reason actor s.clock)).1 with
      | ok receipt =>
          simp only [answer] at failure
          cases failure
      | failed f => rfl
      | crashed => rfl

end Service

open Database Disk Instant in
/-- What writing to a database comes to, through a connection, in a file and behind a service. -/
structure WritesAtomically (access : WriteAccess) (db : Database) : Prop where
  insertion : ∀ r,
    Insertion db r ((Database.insert access r).run db).1 ((Database.insert access r).run db).2
  succeeds : ∀ r, (∃ receipt after, (Database.insert access r).run db = (.ok receipt, after)) ↔
    access = .granted ∧ accept r = .ok () ∧ ∃ rows, db.table = some (.standard rows) ∧
      ∃ stored, (standing rows r).toRetirement r.agreementId = .ok stored
  /-- The row is put in before it turns out that its instant cannot be read back. -/
  unreadable : ∀ r rows, db.table = some (.standard rows) → accept r = .ok () →
    rows.find? r.agreementId = none →
    r.retiredAt.nanos ≤ firstLocalNano - milliNanos ∨ lastLocalNano < r.retiredAt.nanos →
    (insertIn r).run db = (.error (millisFailure r.retiredAtMillis),
        db.withRows (rows.insert r.agreementId (.ofRetirement r))) ∧
      (Database.insert .granted r).run db = (.error (millisFailure r.retiredAtMillis), db)
  script : ∀ (α : Type) (script : Script α), (script.execute access).run db = script.outcome access db
  insertAll : ∀ records,
    Database.insertAll access records = (Script.insertions [] records).execute access
  fileInsertion : ∀ (address : DatabaseAddress) path use (disk : Disk) p,
    Location.ofName? address.name = some (.file path use) → disk.databasePlace? path = some p →
    disk.stored? p = some db → ∀ r,
    ∃ after, ((StoreFile.insert address r).run disk).2.stored? p = some after ∧
      Insertion db r ((StoreFile.insert address r).run disk).1 after
  fileScript : ∀ (address : DatabaseAddress) path use (disk : Disk) p,
    Location.ofName? address.name = some (.file path use) → disk.databasePlace? path = some p →
    disk.stored? p = some db → ∀ (α : Type) (script : Script α),
    (∃ f after, (onRecords address fun access => script.execute access).run disk = (.error f, after) ∧
        after.stored? p = some db) ∨
      ∃ access after,
        (onRecords address fun access => script.execute access).run disk =
            ((script.outcome access db).1, after) ∧
          after.stored? p = some (script.outcome access db).2
  service : ∀ (s : Service) (agreementId reason actor : String),
    (s.retire agreementId reason actor).1.receipt? = none → (s.retire agreementId reason actor).2 = s
  /-- The same of a call between whose steps others come. -/
  call : ∀ (call : RetireCall) (earlier later : List Service) (s : Service) (reply : Reply Receipt),
    call.along (earlier ++ s :: later) = .done reply → reply.receipt? = none →
    ((call.along earlier).step s).2.delivered = s.delivered ∧
      ((call.along earlier).step s).2.auditFailures = s.auditFailures

open Database Disk Instant in
theorem writes_are_atomic (access : WriteAccess) (db : Database) : WritesAtomically access db where
  insertion := insertion_of_run_insert access db
  succeeds := insert_eq_ok_iff access db
  unreadable _ _ table accepted free off :=
    run_insert_unread table accepted free (ofUnixMillis?_unixMillis_eq_none_iff.mpr off)
  script _ script := script.run_execute access db
  insertAll := Script.insertAll_eq_execute access
  fileInsertion _ _ _ _ _ named placed stored :=
    insertion_of_run_storeFile_insert named placed stored
  fileScript _ _ _ _ _ named placed stored _ script :=
    run_onRecords_execute named placed stored script
  service _ _ _ _ := Service.retire_failed
  call _ _ _ _ _ ended failure := RetireCall.quiet_of_along ended failure

open Database Disk in
theorem writes_are_atomic_calendar_edge :
    let edge : Retirement := ⟨"a-1", "superseded", ⟨253402302600000000000, -3600, by decide, by decide⟩, "alice"⟩
    let early : Retirement := ⟨"a-0", "superseded", .epoch, "alice"⟩
    let lost := Instant.millisFailure edge.retiredAtMillis
    let script (result : Except Failure Unit) : Script Unit :=
      .call (.insert early) fun _ => .call (.insert edge) fun _ => .finish result
    let service : Service := { store := ⟨.database fresh, .none⟩, clock := edge.retiredAt }
    let address : DatabaseAddress := { name := "db" }
    let p : Place := ⟨false, ["db"]⟩
    let disk : Disk := Disk.put ∅ p (.database { database := fresh })
    ((insertIn edge).run fresh = (.error lost, fresh.withRows (Catalog.insert ∅ "a-1" (.ofRetirement edge))) ∧
        (Database.insert .granted edge).run fresh = (.error lost, fresh)) ∧
      ((script (.ok ())).execute .granted).run fresh = (.ok (), fresh.fill [Row.entry early, Row.entry edge]) ∧
      ((script (.error lost)).execute .granted).run fresh = (.error lost, fresh) ∧
      (∃ after, ((StoreFile.insert address early).run disk).2.stored? p = some after ∧
        Insertion fresh early ((StoreFile.insert address early).run disk).1 after) ∧
      (service.retire "a-1" "superseded" "alice").2 = service ∧
      (((RetireCall.asked "a-1" "superseded" "alice").along [service]).step service).2.delivered = [] := by
  intro edge early lost script service address p disk
  have valid : edge.validate = .ok () := by simp +decide [edge, Retirement.validate]
  have valid' : early.validate = .ok () := by simp +decide [early, Retirement.validate]
  have accepted : accept edge = .ok () :=
    accept_eq_ok_iff.mpr ⟨valid, by simp +decide [edge, checkRow, Row.ofRetirement]⟩
  have accepted' : accept early = .ok () :=
    accept_eq_ok_iff.mpr ⟨valid', by simp +decide [early, checkRow, Row.ofRetirement]⟩
  have atomic := writes_are_atomic .granted fresh
  have failed := atomic.unreadable edge ∅ table_fresh accepted rfl (.inr (by decide))
  refine ⟨failed, (atomic.script Unit (script (.ok ()))).trans ?_,
    (atomic.script Unit (script (.error lost))).trans rfl, ?_, ?_, ?_⟩
  · simp only [script, Script.outcome, Script.result, Script.entries, Script.calls, List.flatMap_cons, Call.entries,
      accepted, accepted']
    rfl
  · have named : Location.ofName? address.name = some (.file "db" {}) := by
      simp +decide [address, Location.ofName?, Location.ofPath, String.contains_char_eq]
    have parts : Path.steps "db" = ["db"] := by
      simp +decide [Path.steps, String.splitOn, String.splitOnAux]
    have relative : Path.start "db" = ⟨false, []⟩ := by simp [Path.start]
    have passable (disk : Disk) : disk.isPassable "db" = true := by
      simp +decide [Disk.isPassable, Path.places, parts, relative, Place.enter, Place.below, Disk.follow,
        Disk.isDirectory, Disk.isName, String.contains_char_eq]
    have placed : disk.databasePlace? "db" = some p := by
      simp +decide [Disk.databasePlace?, Path.place, passable, parts, relative, Place.enter, Place.below,
        Place.above, Disk.isDirectory, Disk.node?, Disk.put, disk, p]
    exact atomic.fileInsertion address "db" {} disk p named placed (stored?_put _ _ _) early
  · exact atomic.service service "a-1" "superseded" "alice" (by decide +kernel)
  · refine (atomic.call (.asked "a-1" "superseded" "alice") [service] [] service (.failed lost) ?_ rfl).1
    have answer : service.insert edge = (.failed lost, service) := by
      simp only [Service.insert, FaultyStore.insert, FaultyStore.insertFault, FaultPlan.none, service, Store.insert,
        failed.2]
      rfl
    have made : Retirement.create "a-1" "superseded" "alice" service.clock = edge := rfl
    simp only [RetireCall.along, List.foldl_append, List.foldl_cons, List.foldl_nil, RetireCall.step, made, valid,
      answer]

end RetirementLedger

import RetirementLedger.Proofs.Database.Losses
import RetirementLedger.Proofs.Database.Reply
import RetirementLedger.Proofs.Restoration

/-!
What the readers of a store are shown. Each look-up, each query and each listing shows retirements of one
list, with one for each agreement, and fails where a row cannot be read.
-/
namespace RetirementLedger

theorem Row.isWhole_of_toRetirement {id : String} {row : Row} {r : Retirement}
    (read : row.toRetirement id = .ok r) : r.retiredAt.IsWhole := by
  obtain ⟨t, stamp, rfl⟩ := exists_toRetirement read
  exact Instant.isWhole_of_ofUnixMillis? stamp

namespace Row

variable {entries : List (String × Row)}

def retirements (entries : List (String × Row)) : List Retirement :=
  entries.filterMap fun e => (e.2.toRetirement e.1).toOption

def unreadable (entries : List (String × Row)) : List (String × Row) :=
  entries.filter fun e => !(e.2.toRetirement e.1).isOk

theorem toRetirement_eq_error {id : String} {row : Row} {f : Failure}
    (failed : row.toRetirement id = .error f) : f = Instant.millisFailure row.retiredAtMillis := by
  unfold toRetirement at failed
  split at failed
  · cases failed
  · exact (Except.error.inj failed).symm

theorem mem_retirements {r : Retirement} :
    r ∈ retirements entries ↔ ∃ e ∈ entries, e.2.toRetirement e.1 = .ok r := by
  simp only [retirements, List.mem_filterMap]
  refine exists_congr fun e => and_congr_right fun _ => ?_
  cases e.2.toRetirement e.1 <;> simp [Except.toOption]

theorem mem_unreadable {e : String × Row} :
    e ∈ unreadable entries ↔
      e ∈ entries ∧ e.2.toRetirement e.1 = .error (Instant.millisFailure e.2.retiredAtMillis) := by
  simp only [unreadable, List.mem_filter]
  refine and_congr_right fun _ => ?_
  cases read : e.2.toRetirement e.1 with
  | ok r => simp [Except.isOk, Except.toBool]
  | error f => simp [Except.isOk, Except.toBool, toRetirement_eq_error read]

end Row

theorem Retirement.find?_eq_some_iff {records : List Retirement}
    (distinct : (records.map (·.agreementId)).Nodup) {id : String} {r : Retirement} :
    records.find? (·.agreementId = id) = some r ↔ r ∈ records ∧ r.agreementId = id := by
  constructor
  · intro found
    exact ⟨List.mem_of_find?_eq_some found, by simpa using List.find?_some found⟩
  · rintro ⟨member, rfl⟩
    induction records with
    | nil => cases member
    | cons first rest ih =>
        obtain ⟨apart, distinct⟩ := List.nodup_cons.mp distinct
        rcases List.mem_cons.mp member with rfl | later
        · simp
        · have other : first.agreementId ≠ r.agreementId := fun same =>
            apart (List.mem_map.mpr ⟨r, later, same.symm⟩)
          rw [List.find?_cons_of_neg (by simpa using other)]
          exact ih distinct later

namespace Store

/-- What is filed in the store, and what comes of reading it. -/
def contents : Store → List (String × Except Failure Retirement)
  | .memory ledger => ledger.records.entries.map fun e => (e.1, .ok e.2)
  | .database db =>
    match db.table with
    | some (.standard rows) => rows.entries.map fun e => (e.1, e.2.toRetirement e.1)
    | _ => []

def readings (records : List Retirement) (lost : List (String × Row)) :
    List (String × Except Failure Retirement) :=
  records.map (fun r => (r.agreementId, .ok r)) ++
    lost.map fun e => (e.1, .error (Instant.millisFailure e.2.retiredAtMillis))

/-- The store files these retirements, which it shows to all who read it, and besides them only these
rows, which it shows to nobody. -/
structure Represents (s : Store) (records : List Retirement) (lost : List (String × Row)) : Prop where
  contents : s.contents.Perm (readings records lost)
  distinct : ((readings records lost).map (·.1)).Nodup
  valid : ∀ r ∈ records, r.validate = .ok ()
  validRow : ∀ e ∈ lost, ∃ r : Retirement, r.validate = .ok () ∧ Row.entry r = e
  whole : ∀ r ∈ records, r.retiredAt.IsWhole
  found : ∀ id, (∀ e ∈ lost, e.1 ≠ id) → s.find? id = .ok (records.find? (·.agreementId = id))
  unread : ∀ e ∈ lost, s.find? e.1 = .error (Instant.millisFailure e.2.retiredAtMillis)
  selected : ∀ selection shown, s.select selection = .ok shown → shown ⊆ records
  listed : ∀ db, s = .database db →
    ((∃ shown, db.list = .ok shown) ↔ lost = []) ∧ ∀ shown, db.list = .ok shown → shown.Perm records

variable {s : Store} {records : List Retirement} {lost : List (String × Row)}

theorem map_fst_readings :
    (readings records lost).map (·.1) = records.map (·.agreementId) ++ lost.map (·.1) := by
  simp [readings, Function.comp_def]

theorem perm_readings (entries : List (String × Row)) :
    (entries.map fun e => (e.1, e.2.toRetirement e.1)).Perm
      (readings (Row.retirements entries) (Row.unreadable entries)) := by
  induction entries with
  | nil => exact .refl _
  | cons e rest ih =>
      rw [List.map_cons]
      cases read : e.2.toRetirement e.1 with
      | ok r =>
          have about := (Row.toRetirement_eq_ok read).1
          have more : readings (Row.retirements (e :: rest)) (Row.unreadable (e :: rest)) =
              (e.1, .ok r) :: readings (Row.retirements rest) (Row.unreadable rest) := by
            simp [readings, Row.retirements, Row.unreadable, read, about, Except.toOption, Except.isOk,
              Except.toBool]
          rw [more]
          exact ih.cons _
      | error f =>
          have more : readings (Row.retirements (e :: rest)) (Row.unreadable (e :: rest)) =
              (Row.retirements rest).map (fun r => (r.agreementId, .ok r)) ++
                (e.1, .error f) :: (Row.unreadable rest).map fun e =>
                  (e.1, .error (Instant.millisFailure e.2.retiredAtMillis)) := by
            simp [readings, Row.retirements, Row.unreadable, read, Except.toOption, Except.isOk,
              Except.toBool, Row.toRetirement_eq_error read]
          rw [more]
          exact (ih.cons _).trans List.perm_middle.symm

theorem Represents.nodup (represents : s.Represents records lost) :
    (records.map (·.agreementId)).Nodup :=
  (map_fst_readings ▸ represents.distinct).of_append_left

end Store

namespace Database

variable {db : Database} {rows : Catalog Row}

theorem exists_list (table : db.table = some (.standard rows))
    (readable : ∀ e ∈ rows.entries, ∃ r, e.2.toRetirement e.1 = .ok r) :
    ∃ records, db.list = .ok records := by
  obtain ⟨records, read⟩ := @exists_mapM (rows.entries.mergeSort (Select.precedes listingOrder))
    fun e member => readable e ((List.mergeSort_perm _ _).mem_iff.mp member)
  refine ⟨records, ?_⟩
  have whole (statement : String) : db.readable statement = .ok rows := by
    simp [Database.readable, table]
  unfold list
  rw [whole]
  exact read

theorem checkSize_of_select {s : Selection} {records : List Retirement} (shown : db.select s = .ok records) :
    (Select.ofSelection s).checkSize = .ok () := by
  cases sized : (Select.ofSelection s).checkSize with
  | ok u => rfl
  | error f =>
      unfold select at shown
      dsimp only at shown
      rw [sized] at shown
      cases shown

theorem find?_of_readable (table : db.table = some (.standard rows))
    (distinct : ((Row.retirements rows.entries).map (·.agreementId)).Nodup) {id : String}
    (readable : ∀ e ∈ Row.unreadable rows.entries, e.1 ≠ id) :
    db.find? id = .ok ((Row.retirements rows.entries).find? (·.agreementId = id)) := by
  rw [find?_eq table]
  cases known : rows.find? id with
  | none =>
      refine (congrArg Except.ok (List.find?_eq_none.mpr fun r member same => ?_)).symm
      obtain ⟨e, present, read⟩ := Row.mem_retirements.mp member
      have about : e.1 = id := (Row.toRetirement_eq_ok read).1.symm.trans (by simpa using same)
      have held := Catalog.find?_eq_some_iff.mpr present
      rw [about, known] at held
      cases held
  | some row =>
      have present : (id, row) ∈ rows.entries := Catalog.find?_eq_some_iff.mp known
      dsimp only
      cases read : row.toRetirement id with
      | error f =>
          have unread : (id, row) ∈ Row.unreadable rows.entries :=
            Row.mem_unreadable.mpr ⟨present, Row.toRetirement_eq_error read ▸ read⟩
          exact absurd rfl (readable _ unread)
      | ok r =>
          refine (congrArg Except.ok ?_).symm
          rw [Retirement.find?_eq_some_iff distinct]
          exact ⟨Row.mem_retirements.mpr ⟨_, present, read⟩, (Row.toRetirement_eq_ok read).1⟩

theorem subset_of_select (table : db.table = some (.standard rows)) {selection : Selection}
    {shown : List Retirement} (answer : db.select selection = .ok shown) :
    shown ⊆ Row.retirements rows.entries := by
  rw [select_eq table (checkSize_of_select answer)] at answer
  obtain ⟨found, run, read⟩ := bind_eq_ok.mp answer
  obtain ⟨entries, restored⟩ := entries_of_mapM read
  intro r member
  rcases Select.run_cases selection rows db.indexed with ⟨other, same, known⟩ | ⟨-, failed⟩
  · cases same.symm.trans run
    exact Row.mem_retirements.mpr
      ⟨Row.entry r, known (entries ▸ List.mem_map_of_mem member), restored r member⟩
  · cases failed.symm.trans run

theorem perm_of_list (table : db.table = some (.standard rows)) {shown : List Retirement}
    (listed : db.list = .ok shown) :
    shown.Perm (Row.retirements rows.entries) ∧ Row.unreadable rows.entries = [] := by
  obtain ⟨entries, restored⟩ := list_spec table listed
  constructor
  · have own : (shown.map Row.entry).filterMap (fun e => (e.2.toRetirement e.1).toOption) = shown := by
      rw [List.filterMap_map]
      refine (List.filterMap_congr fun r member => ?_).trans List.filterMap_some
      exact congrArg Except.toOption (restored r member)
    exact own ▸ entries.filterMap _
  · refine List.eq_nil_iff_forall_not_mem.mpr fun e member => ?_
    obtain ⟨present, unread⟩ := Row.mem_unreadable.mp member
    obtain ⟨r, known, rfl⟩ := List.mem_map.mp (entries.mem_iff.mpr present)
    cases (restored r known).symm.trans unread

end Database

namespace Store

def IsPrecise (s : Store) : Prop := ∀ id r, s.record? id = some r → r.retiredAt.IsWhole

variable {s after : Store} {r : Retirement} {receipt : Receipt}

theorem isPrecise_database {db : Database} (current : (database db).IsCurrent) :
    (database db).IsPrecise := by
  intro id r held
  obtain ⟨-, rows, table⟩ := current
  rw [Database.record?_eq table] at held
  obtain ⟨row, -, value⟩ := Option.bind_eq_some_iff.mp held
  cases read : row.toRetirement id with
  | error f => simp [read, Except.toOption] at value
  | ok found =>
      simp only [read, Except.toOption, Option.some.injEq] at value
      rw [← value]
      exact Row.isWhole_of_toRetirement read

theorem isWhole_of_kept {stored : Retirement} (kept : s.kept r = .ok stored)
    (whole : r.retiredAt.IsWhole) : stored.retiredAt.IsWhole := by
  cases s with
  | memory ledger =>
      cases kept
      exact whole
  | database db => exact Row.isWhole_of_toRetirement kept

theorem Insertion.isPrecise (insertion : Insertion s r (.ok receipt) after) (precise : s.IsPrecise)
    (whole : r.retiredAt.IsWhole) : after.IsPrecise := by
  cases insertion with
  | known accepted held => exact precise
  | made accepted free kept content kind =>
      intro id earlier held
      rw [content] at held
      split at held
      · cases held
        exact isWhole_of_kept kept whole
      · exact precise id earlier held

end Store

namespace Store

theorem record?_memory {ledger : Ledger} (sound : (memory ledger).Sound) {id : String} {r : Retirement} :
    (memory ledger).record? id = some r ↔ r ∈ ledger.records.values ∧ r.agreementId = id := by
  rw [Catalog.mem_values]
  constructor
  · exact fun held => ⟨⟨id, held⟩, (sound.filed id r held).1⟩
  · rintro ⟨⟨name, held⟩, rfl⟩
    rw [(sound.filed name r held).1]
    exact held

theorem represents_values {ledger : Ledger} (sound : (memory ledger).Sound)
    (precise : (memory ledger).IsPrecise) : (memory ledger).Represents ledger.records.values [] := by
  have filed (e : String × Retirement) (member : e ∈ ledger.records.entries) :
      e.2.agreementId = e.1 :=
    (sound.filed e.1 e.2 (Catalog.find?_eq_some_iff.mpr member)).1
  have held {r : Retirement} (member : r ∈ ledger.records.values) :
      (memory ledger).record? r.agreementId = some r := (record?_memory sound).mpr ⟨member, rfl⟩
  have names : ledger.records.values.map (·.agreementId) = ledger.records.names := by
    rw [Catalog.values, List.map_map]
    exact List.map_congr_left filed
  have distinct : (ledger.records.values.map (·.agreementId)).Nodup :=
    names ▸ ledger.records.nodup_names
  refine
    { contents := ?_
      distinct := by simpa [readings, Function.comp_def] using distinct
      valid := fun r member => (sound.filed _ r (held member)).2
      validRow := by simp
      whole := fun r member => precise _ r (held member)
      found := fun id _ => ?_
      unread := by simp
      selected := fun selection shown answer => ?_
      listed := fun db same => by cases same }
  · rw [readings, List.map_nil, List.append_nil, Catalog.values, List.map_map]
    refine .of_eq (List.map_congr_left fun e member => ?_)
    simp [filed e member]
  · rw [sound.readable]
    refine congrArg Except.ok (Option.ext fun r => ?_)
    rw [record?_memory sound, Retirement.find?_eq_some_iff distinct]
  · cases answer
    exact fun r member => Selection.mem_of_mem_apply member

theorem represents_rows {db : Database} {lost : List (String × Row)} (filed : db.Filed lost) :
    ∃ records unreadable, (database db).Represents records unreadable ∧ unreadable ⊆ lost := by
  obtain ⟨rows, table⟩ := filed.current.2
  have rowOf := filed.rows rows table
  have distinct :
      ((readings (Row.retirements rows.entries) (Row.unreadable rows.entries)).map (·.1)).Nodup := by
    refine ((perm_readings rows.entries).map (·.1)).nodup_iff.mp ?_
    rw [List.map_map]
    exact rows.nodup_names
  have nodup : ((Row.retirements rows.entries).map (·.agreementId)).Nodup :=
    (map_fst_readings ▸ distinct).of_append_left
  refine ⟨Row.retirements rows.entries, Row.unreadable rows.entries,
    { contents := by simpa only [contents, table] using perm_readings rows.entries
      distinct
      valid := fun r member => ?_
      validRow := fun e member => (rowOf e (Row.mem_unreadable.mp member).1).1
      whole := fun r member => ?_
      found := fun id => Database.find?_of_readable table nodup
      unread := fun e member => ?_
      selected := fun selection shown answer => Database.subset_of_select table answer
      listed := fun other same => ?_ }, fun e member => ?_⟩
  · obtain ⟨e, present, read⟩ := Row.mem_retirements.mp member
    obtain ⟨entered, valid, rfl⟩ := (rowOf e present).1
    obtain ⟨id, reason, actor⟩ := Row.toRetirement_eq_ok read
    exact (Retirement.validate_congr id reason actor).trans valid
  · obtain ⟨e, -, read⟩ := Row.mem_retirements.mp member
    exact Row.isWhole_of_toRetirement read
  · obtain ⟨present, unread⟩ := Row.mem_unreadable.mp member
    change db.find? e.1 = _
    rw [Database.find?_eq table, Catalog.find?_eq_some_iff.mpr present]
    dsimp only
    rw [unread]
    rfl
  · cases same
    refine ⟨⟨fun ⟨shown, listed⟩ => (Database.perm_of_list table listed).2, fun none => ?_⟩,
      fun shown listed => (Database.perm_of_list table listed).1⟩
    refine Database.exists_list table fun e present => ?_
    cases read : e.2.toRetirement e.1 with
    | ok r => exact ⟨r, rfl⟩
    | error f =>
        have unread := Row.mem_unreadable.mpr ⟨present, Row.toRetirement_eq_error read ▸ read⟩
        rw [none] at unread
        cases unread
  · obtain ⟨present, unread⟩ := Row.mem_unreadable.mp member
    rcases (rowOf e present).2 with ⟨stored, read⟩ | listed
    · cases read.symm.trans unread
    · exact listed

end Store

end RetirementLedger

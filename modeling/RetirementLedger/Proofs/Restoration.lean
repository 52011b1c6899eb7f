import RetirementLedger.Proofs.Snapshot.Listing
import RetirementLedger.Proofs.Snapshot.Reading

namespace RetirementLedger

namespace Database

variable {db : Database} {rows : Catalog Row} {records : List Retirement}

theorem isSome_record? (readable : IsReadable rows) (table : db.table = some (.standard rows))
    (id : String) : ((Store.database db).record? id).isSome = rows.contains id := by
  rw [record?_eq table, Catalog.contains]
  cases held : rows.find? id with
  | none => rfl
  | some row =>
      obtain ⟨r, read⟩ := readable id row held
      simp [read, Except.toOption]

theorem nodup_of_list (table : db.table = some (.standard rows)) (listed : db.list = .ok records) :
    (records.map (·.agreementId)).Nodup := by
  have names : ((records.map Row.entry).map Prod.fst).Nodup :=
    ((list_spec table listed).1.map _).nodup_iff.mpr rows.nodup_names
  rwa [List.map_map] at names

theorem lookup_of_list (table : db.table = some (.standard rows)) (listed : db.list = .ok records)
    (id : String) : (records.map Row.entry).lookup id = rows.find? id := by
  have distinct : ((records.map Row.entry).map (·.1)).Nodup := by
    rw [List.map_map]
    exact nodup_of_list table listed
  ext row
  rw [Catalog.lookup_eq_some_iff distinct, Catalog.find?_eq_some_iff]
  exact (list_spec table listed).1.mem_iff

theorem mem_of_list (table : db.table = some (.standard rows)) (listed : db.list = .ok records)
    {id : String} {r : Retirement} :
    (Store.database db).record? id = some r ↔ r ∈ records ∧ r.agreementId = id := by
  obtain ⟨entries, restored⟩ := list_spec table listed
  constructor
  · intro held
    rw [record?_eq table] at held
    obtain ⟨row, known, value⟩ := Option.bind_eq_some_iff.mp held
    have read : row.toRetirement id = .ok r := by
      cases read : row.toRetirement id with
      | error f => simp [read, Except.toOption] at value
      | ok found => simpa [read, Except.toOption] using value
    have entry := Row.entry_of_toRetirement read
    rw [Catalog.find?_eq_some_iff, ← entries.mem_iff] at known
    obtain ⟨listed, member, same⟩ := List.mem_map.mp known
    have again := restored listed member
    obtain ⟨about, kept⟩ := Prod.mk.inj same
    rw [about, kept, read] at again
    cases again
    exact ⟨member, about⟩
  · rintro ⟨member, rfl⟩
    exact record?_of_entry table (entries.mem_iff.mp (List.mem_map_of_mem member)) (restored r member)

theorem run_importRecords (current : db.recordedVersion = latestVersion)
    (table : db.table = some (.standard rows)) (readable : IsReadable rows) {path : String}
    {dir : SnapshotDir} (read : Snapshot.read path dir = .ok records)
    (storable : ∀ r ∈ records, Storable r) (distinct : (records.map (·.agreementId)).Nodup) :
    ∃ receipts, receipts.map (·.wasNew) = records.map (fun r => !rows.contains r.agreementId) ∧
      (importRecords .granted path dir).run db =
        (.ok receipts, db.withRows (rows.fill (records.map Row.entry))) := by
  obtain ⟨receipts, news, stored⟩ := run_insertAll_storable table readable storable distinct
  refine ⟨receipts, news, ?_⟩
  unfold importRecords
  simp only [run_bind, run_migrate_current .granted current, run_lift, read, run_ofWork, stored]

theorem list_congr {other : Database} (table : db.table = other.table) : db.list = other.list := by
  simp only [list, readable, table]

end Database

theorem Snapshot.summarize_eq {receipts : List Receipt} {records : List Retirement}
    {isNew : Retirement → Bool} (news : receipts.map (·.wasNew) = records.map isNew) :
    summarize receipts = ⟨records.countP isNew, records.countP (!isNew ·)⟩ := by
  have counts (p : Bool → Bool) :
      receipts.countP (fun receipt => p receipt.wasNew) = records.countP fun r => p (isNew r) := by
    have counted := congrArg (List.countP p) news
    rwa [List.countP_map, List.countP_map] at counted
  rw [summarize, counts (·), counts (!·)]

theorem Snapshot.exportTo_again {path now path' now' : String} {records : List Retirement}
    {room room' : WriteRoom} {before before' dir dir' : SnapshotDir} {manifest again : Manifest}
    (exported : exportTo path records now room before = (.ok manifest, dir))
    (repeated : exportTo path' records now' room' before' = (.ok again, dir')) :
    dir'.records = dir.records ∧ again.files = manifest.files := by
  obtain ⟨content, written, rfl, rfl⟩ := exportTo_ok exported
  obtain ⟨content', written', rfl, rfl⟩ := exportTo_ok repeated
  cases written.symm.trans written'
  exact ⟨rfl, rfl⟩

namespace System

theorem restored_from_snapshot {s t : System} (source : s.Reachable) (target : t.Reachable)
    {S T : Database} (exporting : s.store = .database S) (importing : t.store = .database T)
    {records : List Retirement} (listed : S.list = .ok records)
    (countable : records.length < 0x10000000000000000) {path now : String} {room : WriteRoom}
    {before dir : SnapshotDir} {manifest : Manifest}
    (exported : Snapshot.exportTo path records now room before = (.ok manifest, dir))
    (from_ : String) :
    let restored := t.run [.traffic (.importSnapshot .granted from_ dir)]
    let isOld (r : Retirement) : Bool := (t.store.record? r.agreementId).isSome
    (records.map (·.agreementId)).Nodup ∧
      (∀ id r, s.store.record? id = some r ↔ r ∈ records ∧ r.agreementId = id) ∧
      ∃ T', (Database.importSnapshot .granted from_ dir).run T =
          (.ok ⟨records.countP (!isOld ·), records.countP isOld⟩, T') ∧
        restored.store = .database T' ∧
        (∀ id, restored.store.record? id = (t.store.record? id).or (s.store.record? id)) ∧
        ((∀ id, t.store.record? id = none) → T'.table = S.table ∧ T'.list = .ok records ∧
          ∀ path now room before dir' again,
            Snapshot.exportTo path records now room before = (.ok again, dir') →
              dir'.records = dir.records ∧ again.files = manifest.files) := by
  intro restored isOld
  have soundS := source.recorded.sound
  have soundT := target.recorded.sound
  have acceptedS := source.accepted
  rw [exporting] at soundS acceptedS ⊢
  rw [importing] at soundT
  obtain ⟨-, rowsS, tableS⟩ := soundS.current
  obtain ⟨currentT, rowsT, tableT⟩ := soundT.current
  have readable := Database.isReadable_of_sound soundT tableT
  have distinct := Database.nodup_of_list tableS listed
  -- What the source has accepted once, any database accepts, so the import cannot stop half way.
  obtain ⟨receipts, news, imported⟩ := Database.run_importRecords currentT tableT readable
    (Snapshot.read_of_exportTo exported countable from_)
    (fun r member => Database.storable_of_list acceptedS tableS listed member) distinct
  have old (id : String) : (t.store.record? id).isSome = rowsT.contains id := by
    rw [importing, Database.isSome_record? readable tableT]
  have store : restored.store =
      .database (T.withRows (rowsT.fill (records.map Row.entry))) := by
    change (t.toTraffic.administer (Database.importRecords .granted from_ dir)).store = _
    simp only [Traffic.administer, importing, imported]
    rfl
  have rows (id : String) : (rowsT.fill (records.map Row.entry)).find? id =
      (rowsT.find? id).or (rowsS.find? id) := by
    rw [Catalog.find?_fill, Database.lookup_of_list tableS listed]
  refine ⟨distinct, fun id r => Database.mem_of_list tableS listed, _, ?_, store, ?_, ?_⟩
  · unfold Database.importSnapshot
    simp only [run_bind, imported, run_pure, Snapshot.summarize_eq news, Bool.not_not]
    simp only [isOld, old]
  · intro id
    rw [store, Database.record?_eq rfl, rows, importing, Database.record?_eq tableT,
      Database.record?_eq tableS]
    cases held : rowsT.find? id with
    | none => rfl
    | some row =>
        obtain ⟨r, read⟩ := readable id row held
        simp [read, Except.toOption]
  · intro empty
    have same : rowsT.fill (records.map Row.entry) = rowsS := by
      refine Catalog.ext_find? fun id => ?_
      have free : rowsT.find? id = none := by
        have absent := old id
        rw [empty id, Catalog.contains] at absent
        exact Option.isNone_iff_eq_none.mp (Option.isSome_eq_false_iff.mp absent.symm)
      rw [rows, free, Option.none_or]
    have table : (T.withRows (rowsT.fill (records.map Row.entry))).table = S.table := by
      rw [same, tableS]
      rfl
    exact ⟨table, (Database.list_congr table).trans listed,
      fun _ _ _ _ _ _ repeated => Snapshot.exportTo_again exported repeated⟩

theorem restored_from_snapshot_overlapping :
    let mine : Retirement := .create "a-1" "MANUAL" "alice" .epoch
    let theirs : Retirement := .create "a-1" "EXPIRED" "bob" .epoch
    let start := setUp (.database .fresh) .epoch
    let s := start.run [.traffic (.insert mine)]
    let t := start.run [.traffic (.insert theirs)]
    let S := ((Database.insert .granted mine).run .fresh).2
    let T := ((Database.insert .granted theirs).run .fresh).2
    s.Reachable ∧ t.Reachable ∧ s.store = .database S ∧ t.store = .database T ∧
      S.list = .ok [mine] ∧
      ∃ manifest dir, Snapshot.exportTo "backup" [mine] "now" {} {} = (.ok manifest, dir) ∧
        ∃ T', (Database.importSnapshot .granted "backup" dir).run T = (.ok ⟨0, 1⟩, T') := by
  intro mine theirs start s t S T
  have initial : start.IsInitial := isInitial_setUp (.inr rfl) .epoch
  have valid : mine.validate = .ok () := by decide
  have checked : Database.checkRow mine.agreementId (.ofRetirement mine) = .ok () := by decide
  have kept : (Row.ofRetirement mine).toRetirement mine.agreementId = .ok mine := by decide
  have free : (∅ : Catalog Row).find? mine.agreementId = none := rfl
  have stored : S =
      Database.withRows .fresh (Catalog.insert ∅ mine.agreementId (.ofRetirement mine)) := by
    simp only [S, Database.run_insert Database.table_fresh, valid, checked, free, kept]
  have listed : S.list = .ok [mine] := by
    rw [stored]
    change ([(mine.agreementId, Row.ofRetirement mine)].mergeSort _).mapM _ = _
    simp only [List.mergeSort_singleton, List.mapM_cons, kept]
    rfl
  obtain ⟨content, written⟩ : ∃ content, Snapshot.lines [mine] = (content, false) :=
    ⟨(Snapshot.lines [mine]).1, Prod.ext rfl (show (Snapshot.lines [mine]).2 = false by decide)⟩
  have exported : Snapshot.exportTo "backup" [mine] "now" {} {} =
      (.ok (Snapshot.manifestOf content 1 "now"),
        ⟨some content, some (Snapshot.manifestBytes (Snapshot.manifestOf content 1 "now"))⟩) := by
    simp [Snapshot.exportTo, written, Snapshot.write]
  have reachableS : s.Reachable := initial.reachable.run _
  have reachableT : t.Reachable := initial.reachable.run _
  obtain ⟨-, -, T', imported, -⟩ := restored_from_snapshot reachableS reachableT (S := S) (T := T) rfl
    rfl listed (by decide) exported "backup"
  have old : (t.store.record? mine.agreementId).isSome = true := by decide
  simp only [List.countP_singleton, old, Bool.not_true, Bool.false_eq_true, if_false, if_true] at imported
  exact ⟨reachableS, reachableT, rfl, rfl, listed, _, _, exported, T', imported⟩

end System

end RetirementLedger

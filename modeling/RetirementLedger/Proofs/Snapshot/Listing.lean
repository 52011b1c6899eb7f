import RetirementLedger.Proofs.Instant
import RetirementLedger.Proofs.Snapshot.Import
import RetirementLedger.Proofs.System.Basic

namespace RetirementLedger

theorem Row.entry_of_toRetirement {id : String} {row : Row} {r : Retirement}
    (read : row.toRetirement id = .ok r) : Row.entry r = (id, row) := by
  obtain ⟨t, stamp, rfl⟩ := exists_toRetirement read
  simp [entry, ofRetirement, Retirement.retiredAtMillis, Instant.unixMillis_of_ofUnixMillis? stamp]

namespace Database

theorem entries_of_mapM {entries : List (String × Row)} {records : List Retirement}
    (read : entries.mapM (fun e => e.2.toRetirement e.1) = .ok records) :
    records.map Row.entry = entries ∧
      ∀ r ∈ records, (Row.ofRetirement r).toRetirement r.agreementId = .ok r := by
  induction entries generalizing records with
  | nil =>
      cases read
      exact ⟨rfl, fun r member => by cases member⟩
  | cons e entries ih =>
      rw [List.mapM_cons] at read
      cases first : e.2.toRetirement e.1 with
      | error f =>
          rw [first] at read
          cases read
      | ok r =>
          cases others : entries.mapM (fun e => e.2.toRetirement e.1) with
          | error f =>
              rw [first, others] at read
              cases read
          | ok more =>
              rw [first, others] at read
              cases read
              obtain ⟨same, restored⟩ := ih others
              have entry := Row.entry_of_toRetirement first
              refine ⟨by rw [List.map_cons, entry, same], List.forall_mem_cons.mpr ⟨?_, restored⟩⟩
              rw [← first, ← congrArg Prod.fst entry, ← congrArg Prod.snd entry]
              rfl

theorem list_spec {db : Database} {rows : Catalog Row} (table : db.table = some (.standard rows))
    {records : List Retirement} (listed : db.list = .ok records) :
    (records.map Row.entry).Perm rows.entries ∧
      ∀ r ∈ records, (Row.ofRetirement r).toRetirement r.agreementId = .ok r := by
  have read : db.readable ("SELECT " ++ Select.columnList ++
      " FROM agreement_retirements\n                 ORDER BY retired_at_ms ASC, agreement_id ASC") =
      .ok rows := by
    simp [readable, table]
  unfold list at listed
  rw [read] at listed
  obtain ⟨entries, restored⟩ := entries_of_mapM listed
  rw [entries]
  exact ⟨List.mergeSort_perm _ _, restored⟩

theorem checkRow_congr {row other : Row} (reason : row.reason = other.reason) (id : String) :
    checkRow id row = checkRow id other := by
  simp only [checkRow, reason]

end Database

namespace Store

/-- The store would accept each of its records again. -/
def Accepted (s : Store) : Prop := ∀ id r, s.record? id = some r → s.accept r = .ok ()

variable {s after : Store} {r stored : Retirement}

theorem accept_congr (kind : after.isDatabase = s.isDatabase) (r : Retirement) :
    after.accept r = s.accept r := by
  cases s <;> cases after <;> first | rfl | cases kind

theorem accept_kept (kept : s.kept r = .ok stored) : s.accept stored = s.accept r := by
  cases s with
  | memory ledger =>
      cases kept
      rfl
  | database db =>
      obtain ⟨id, reason, actor⟩ := Row.toRetirement_eq_ok kept
      have checked : Database.checkRow stored.agreementId (.ofRetirement stored) =
          Database.checkRow r.agreementId (.ofRetirement r) := by
        rw [id]
        exact Database.checkRow_congr reason _
      rw [accept, accept, Retirement.validate_congr id reason actor, checked]

theorem Insertion.accepted {receipt : Receipt} (insertion : Insertion s r (.ok receipt) after)
    (accepted : s.Accepted) : after.Accepted := by
  cases insertion with
  | known => exact accepted
  | made accepted' free kept content kind =>
      intro id held eq
      rw [accept_congr kind]
      rw [content] at eq
      split at eq
      · cases eq
        rw [accept_kept kept, accepted']
      · exact accepted id held eq

end Store

theorem Traffic.Move.accepted {t u : Traffic} (move : Move t u) (accepted : t.store.Accepted) :
    u.store.Accepted := by
  cases move with
  | adjust service holdings delivered failures =>
      change service.holdings.Accepted
      rwa [holdings]
  | begin => exact accepted
  | insert insertion after => exact insertion.accepted accepted
  | check call => exact accepted
  | fail call unstored failure => exact accepted
  | answer call insertion after => exact insertion.accepted accepted
  | announce call => simpa [store] using accepted

theorem System.Reachable.accepted {s : System} (reachable : s.Reachable) : s.store.Accepted := by
  obtain ⟨start, acts, initial, rfl⟩ := reachable
  refine Traffic.moves_preserve (run_moves initial.traffic.sound acts) ?_
    fun accepted move => move.accepted accepted
  intro id r held
  have nothing : start.store.record? id = none := by
    rcases initial.traffic.empty with store | store <;> rw [store] <;> rfl
  rw [nothing] at held
  cases held

namespace Database

variable {db : Database} {rows : Catalog Row}

theorem record?_eq (table : db.table = some (.standard rows)) (id : String) :
    (Store.database db).record? id = (rows.find? id).bind fun row => (row.toRetirement id).toOption := by
  rw [Store.record?, Store.find?, find?_eq table]
  cases rows.find? id with
  | none => rfl
  | some row =>
      rw [Option.bind_some]
      dsimp only
      cases row.toRetirement id <;> rfl

theorem record?_of_entry (table : db.table = some (.standard rows)) {r : Retirement}
    (member : Row.entry r ∈ rows.entries)
    (restored : (Row.ofRetirement r).toRetirement r.agreementId = .ok r) :
    (Store.database db).record? r.agreementId = some r := by
  have held : rows.find? r.agreementId = some (.ofRetirement r) :=
    Catalog.find?_eq_some_iff.mpr member
  rw [record?_eq table, held, Option.bind_some, restored]
  rfl

theorem isReadable_of_sound (sound : (Store.database db).Sound)
    (table : db.table = some (.standard rows)) : IsReadable rows := by
  intro id row held
  have found : (Store.database db).find? id = _ := find?_eq table id
  rw [sound.readable, held] at found
  cases read : row.toRetirement id with
  | error f => simp [read, Except.map] at found
  | ok r => exact ⟨r, rfl⟩

theorem storable_of_list (accepted : (Store.database db).Accepted)
    (table : db.table = some (.standard rows)) {records : List Retirement}
    (listed : db.list = .ok records) {r : Retirement} (member : r ∈ records) : Storable r := by
  obtain ⟨entries, restored⟩ := list_spec table listed
  have held := record?_of_entry table (entries.mem_iff.mp (List.mem_map_of_mem member))
    (restored r member)
  have again := accepted _ _ held
  have valid := Store.validate_of_accept again
  rw [Store.accept, valid] at again
  exact ⟨valid, again, restored r member⟩

end Database

end RetirementLedger

import RetirementLedger.Proofs.Database.Insertion

namespace RetirementLedger

namespace Catalog

variable {α : Type}

def fill (c : Catalog α) (entries : List (String × α)) : Catalog α :=
  entries.foldl (fun c e => if c.contains e.1 then c else c.insert e.1 e.2) c

theorem fill_cons (c : Catalog α) (e : String × α) (entries : List (String × α)) :
    c.fill (e :: entries) = (if c.contains e.1 then c else c.insert e.1 e.2).fill entries := rfl

theorem fill_append (c : Catalog α) (entries more : List (String × α)) :
    c.fill (entries ++ more) = (c.fill entries).fill more := List.foldl_append

theorem fill_of_known {c : Catalog α} {name : String} {earlier : α} (known : c.find? name = some earlier)
    (value : α) : c.fill [(name, value)] = c := by
  rw [fill_cons, contains, known, Option.isSome_some, if_pos rfl]
  rfl

theorem fill_of_free {c : Catalog α} {name : String} (free : c.find? name = none) (value : α) :
    c.fill [(name, value)] = c.insert name value := by
  rw [fill_cons, contains, free, Option.isSome_none, if_neg Bool.false_ne_true]
  rfl

theorem find?_fill (c : Catalog α) (entries : List (String × α)) (name : String) :
    (c.fill entries).find? name = (c.find? name).or (entries.lookup name) := by
  induction entries generalizing c with
  | nil => simp [fill]
  | cons e entries ih =>
      rw [fill_cons, ih, lookup_cons_ite]
      cases known : c.find? e.1 with
      | some value =>
          rw [if_pos (by simp [contains, known])]
          by_cases same : name = e.1
          · simp [same, known]
          · rw [if_neg same]
      | none =>
          rw [if_neg (by simp [contains, known]), find?_insert]
          by_cases same : name = e.1
          · simp [same, known]
          · rw [if_neg same, if_neg same]

theorem lookup_eq_some_iff {entries : List (String × α)} (distinct : (entries.map (·.1)).Nodup)
    {name : String} {value : α} : entries.lookup name = some value ↔ (name, value) ∈ entries := by
  refine ⟨mem_of_lookup, fun member => ?_⟩
  induction entries with
  | nil => cases member
  | cons e entries ih =>
      rw [List.map_cons, List.nodup_cons] at distinct
      rw [lookup_cons_ite]
      rcases List.mem_cons.mp member with rfl | later
      · rw [if_pos rfl]
      · have other : name ≠ e.1 := by
          rintro rfl
          exact distinct.1 (List.mem_map.mpr ⟨_, later, rfl⟩)
        rw [if_neg other, ih distinct.2 later]

end Catalog

def Row.entry (r : Retirement) : String × Row := (r.agreementId, .ofRetirement r)

namespace Database

/-- The retirement passes all checks, and the table gives it back as it is. -/
structure Storable (r : Retirement) : Prop where
  valid : r.validate = .ok ()
  checked : checkRow r.agreementId (.ofRetirement r) = .ok ()
  restored : (Row.ofRetirement r).toRetirement r.agreementId = .ok r

def IsReadable (rows : Catalog Row) : Prop :=
  ∀ id row, rows.find? id = some row → ∃ r, row.toRetirement id = .ok r

theorem IsReadable.insert {rows : Catalog Row} (readable : IsReadable rows) {r : Retirement}
    (storable : Storable r) : IsReadable (rows.insert r.agreementId (.ofRetirement r)) := by
  intro id row held
  rw [Catalog.find?_insert] at held
  split at held
  · next same =>
      cases held
      exact ⟨r, same ▸ storable.restored⟩
  · exact readable id row held

theorem withRows_self {db : Database} {rows : Catalog Row}
    (table : db.table = some (.standard rows)) : db.withRows rows = db := by
  rw [withRows, ← table]

theorem run_insertIn_storable {db : Database} {rows : Catalog Row}
    (table : db.table = some (.standard rows)) (readable : IsReadable rows) {r : Retirement}
    (storable : Storable r) :
    ∃ receipt, receipt.wasNew = !rows.contains r.agreementId ∧
      (insertIn r).run db = (.ok receipt, db.withRows
        (if rows.contains r.agreementId then rows
          else rows.insert r.agreementId (.ofRetirement r))) := by
  rw [run_insertIn table, storable.valid]
  simp only [storable.checked]
  cases known : rows.find? r.agreementId with
  | some row =>
      obtain ⟨earlier, read⟩ := readable _ _ known
      have contained : rows.contains r.agreementId = true := by simp [Catalog.contains, known]
      refine ⟨⟨earlier, false⟩, by rw [contained]; rfl, ?_⟩
      rw [if_pos contained, withRows_self table]
      simp only [read]
      rfl
  | none =>
      have absent : rows.contains r.agreementId = false := by simp [Catalog.contains, known]
      refine ⟨⟨r, true⟩, by rw [absent]; rfl, ?_⟩
      rw [if_neg (by simp [absent])]
      simp only [storable.restored]
      rfl

theorem run_mapM_insertIn {db : Database} {rows : Catalog Row}
    (table : db.table = some (.standard rows)) (readable : IsReadable rows)
    {records : List Retirement} (storable : ∀ r ∈ records, Storable r)
    (distinct : (records.map (·.agreementId)).Nodup) :
    ∃ receipts, receipts.map (·.wasNew) = records.map (fun r => !rows.contains r.agreementId) ∧
      (records.mapM insertIn).run db =
        (.ok receipts, db.withRows (rows.fill (records.map Row.entry))) := by
  induction records generalizing db rows with
  | nil =>
      refine ⟨[], rfl, ?_⟩
      rw [List.mapM_nil, run_pure]
      change _ = (Except.ok [], db.withRows rows)
      rw [withRows_self table]
  | cons r records ih =>
      obtain ⟨receipt, new, first⟩ := run_insertIn_storable table readable (storable r (.head _))
      rw [List.map_cons, List.nodup_cons] at distinct
      generalize next : (if rows.contains r.agreementId then rows
        else rows.insert r.agreementId (.ofRetirement r)) = rows' at first
      have readable' : IsReadable rows' := by
        rw [← next]
        split
        · exact readable
        · exact readable.insert (storable r (.head _))
      have table' : (db.withRows rows').table = some (.standard rows') := rfl
      obtain ⟨receipts, news, others⟩ := ih table' readable'
        (fun r' member => storable r' (.tail _ member)) distinct.2
      refine ⟨receipt :: receipts, ?_, ?_⟩
      · -- The agreements that follow are others, so the first row does not matter to them.
        have same : ∀ r' ∈ records, (!rows'.contains r'.agreementId) = !rows.contains r'.agreementId := by
          intro r' member
          have other : r'.agreementId ≠ r.agreementId := fun same =>
            distinct.1 (List.mem_map.mpr ⟨r', member, same⟩)
          rw [← next]
          split
          · rfl
          · rw [Catalog.contains, Catalog.find?_insert, if_neg other, Catalog.contains]
        rw [List.map_cons, List.map_cons, new, news, List.map_congr_left same]
      · simp only [List.mapM_cons, run_bind, run_pure, first, others, List.map_cons,
          Catalog.fill_cons, Row.entry, next]
        rfl

theorem run_insertAll_storable {db : Database} {rows : Catalog Row}
    (table : db.table = some (.standard rows)) (readable : IsReadable rows)
    {records : List Retirement} (storable : ∀ r ∈ records, Storable r)
    (distinct : (records.map (·.agreementId)).Nodup) :
    ∃ receipts, receipts.map (·.wasNew) = records.map (fun r => !rows.contains r.agreementId) ∧
      (insertAll .granted records).run db =
        (.ok receipts, db.withRows (rows.fill (records.map Row.entry))) := by
  obtain ⟨receipts, news, run⟩ := run_mapM_insertIn table readable storable distinct
  refine ⟨receipts, news, ?_⟩
  rw [insertAll_eq_transaction (.inl (by decide))]
  change (transact (records.mapM insertIn)).run db = _
  rw [run_transact, run]

end Database

end RetirementLedger

import RetirementLedger.Proofs.Catalog
import RetirementLedger.Snapshot.Basic

namespace RetirementLedger

section Run
variable {ε σ α β : Type}

@[simp] theorem run_pure (a : α) (s : σ) :
    (pure a : ExceptT ε (StateM σ) α).run s = (.ok a, s) := rfl

@[simp] theorem run_get (s : σ) : (get : ExceptT ε (StateM σ) σ).run s = (.ok s, s) := rfl

@[simp] theorem run_lift (x : Except ε α) (s : σ) :
    (liftM x : ExceptT ε (StateM σ) α).run s = (x, s) := by
  cases x <;> rfl

@[simp] theorem run_bind (x : ExceptT ε (StateM σ) α) (f : α → ExceptT ε (StateM σ) β) (s : σ) :
    (x >>= f).run s =
      match x.run s with
      | (.ok a, t) => (f a).run t
      | (.error e, t) => (.error e, t) := by
  change ExceptT.bindCont f (x.run s).1 (x.run s).2 = _
  rcases x.run s with ⟨_ | _, t⟩ <;> rfl

theorem run_bind_eq_ok {x : ExceptT ε (StateM σ) α} {f : α → ExceptT ε (StateM σ) β} {s u : σ}
    {b : β} :
    (x >>= f).run s = (.ok b, u) ↔
      ∃ a t, x.run s = (.ok a, t) ∧ (f a).run t = (.ok b, u) := by
  rw [run_bind]
  constructor
  · intro done
    rcases run : x.run s with ⟨e | a, t⟩
    · rw [run] at done
      cases done
    · rw [run] at done
      exact ⟨a, t, rfl, done⟩
  · rintro ⟨a, t, first, rest⟩
    rw [first]
    exact rest

theorem bind_eq_ok {x : Except ε α} {f : α → Except ε β} {b : β} :
    x >>= f = .ok b ↔ ∃ a, x = .ok a ∧ f a = .ok b := by
  cases x <;> simp [bind, Except.bind]

end Run

theorem Row.exists_toRetirement {id : String} {row : Row} {r : Retirement}
    (read : row.toRetirement id = .ok r) :
    ∃ t, Instant.ofUnixMillis? row.retiredAtMillis = some t ∧ r = ⟨id, row.reason, t, row.retiredBy⟩ := by
  unfold toRetirement at read
  cases stamp : Instant.ofUnixMillis? row.retiredAtMillis with
  | none => simp [stamp] at read
  | some t =>
      simp only [stamp] at read
      cases read
      exact ⟨t, rfl, rfl⟩

namespace Database

def withRows (db : Database) (rows : Catalog Row) : Database :=
  { db with table := some (.standard rows) }

theorem find?_eq {db : Database} {rows : Catalog Row} (table : db.table = some (.standard rows))
    (id : String) :
    db.find? id =
      match rows.find? id with
      | none => .ok none
      | some row => (row.toRetirement id).map some := by
  unfold find? readable
  simp only [table, bind, Except.bind, pure, Except.pure]
  cases rows.find? id with
  | none => rfl
  | some row => cases row.toRetirement id <;> rfl

theorem find?_withRows_insert {db : Database} {rows : Catalog Row}
    (table : db.table = some (.standard rows)) (id other : String) (row : Row) :
    (db.withRows (rows.insert id row)).find? other =
      if other = id then (row.toRetirement id).map some else db.find? other := by
  have table' : (db.withRows (rows.insert id row)).table =
      some (.standard (rows.insert id row)) := rfl
  rw [find?_eq table', find?_eq table, Catalog.find?_insert]
  by_cases same : other = id
  · simp only [same, if_true]
  · simp only [same, if_false]

theorem run_putRow {db : Database} {rows : Catalog Row} (table : db.table = some (.standard rows))
    (id : String) (row : Row) :
    (putRow id row).run db =
      match checkRow id row with
      | .error f => (.error f, db)
      | .ok () =>
        if rows.contains id then (.ok false, db)
        else (.ok true, db.withRows (rows.insert id row)) := by
  have written : db.writable = .ok rows := by simp [writable, table]
  unfold putRow
  simp only [run_bind, run_get, run_lift, written]
  cases checkRow id row with
  | error f => rfl
  | ok u => cases rows.contains id <;> rfl

/-- An insertion inside a transaction. The row is put in before it is read back, so a row that
cannot be read back fails with the row in the table. -/
theorem run_insertIn {db : Database} {rows : Catalog Row} (table : db.table = some (.standard rows))
    (r : Retirement) :
    (insertIn r).run db =
      match r.validate with
      | .error f => (.error f, db)
      | .ok () =>
        match checkRow r.agreementId (.ofRetirement r) with
        | .error f => (.error f, db)
        | .ok () =>
          match rows.find? r.agreementId with
          | some earlier => ((earlier.toRetirement r.agreementId).map (⟨·, false⟩), db)
          | none =>
            (((Row.ofRetirement r).toRetirement r.agreementId).map (⟨·, true⟩),
              db.withRows (rows.insert r.agreementId (.ofRetirement r))) := by
  unfold insertIn
  simp only [run_bind, run_lift, run_get]
  cases r.validate with
  | error f => rfl
  | ok u =>
      simp only [run_putRow table]
      cases checkRow r.agreementId (.ofRetirement r) with
      | error f => rfl
      | ok u =>
          cases known : rows.find? r.agreementId with
          | some earlier =>
              have contained : rows.contains r.agreementId = true := by
                simp [Catalog.contains, known]
              simp only [contained, if_true, find?_eq table, known]
              cases earlier.toRetirement r.agreementId <;> rfl
          | none =>
              have absent : rows.contains r.agreementId = false := by
                simp [Catalog.contains, known]
              simp only [absent, Bool.false_eq_true, if_false, find?_withRows_insert table, if_true]
              cases (Row.ofRetirement r).toRetirement r.agreementId <;> rfl

def accept (r : Retirement) : Except Failure Unit := do
  r.validate
  checkRow r.agreementId (.ofRetirement r)

theorem accept_eq_ok_iff {r : Retirement} :
    accept r = .ok () ↔ r.validate = .ok () ∧ checkRow r.agreementId (.ofRetirement r) = .ok () := by
  unfold accept
  cases r.validate with
  | error f => simp [bind, Except.bind]
  | ok u => simp [bind, Except.bind]

theorem run_insertIn_refused {db : Database} {rows : Catalog Row} {r : Retirement} {f : Failure}
    (table : db.table = some (.standard rows)) (refusal : accept r = .error f) :
    (insertIn r).run db = (.error f, db) := by
  rw [run_insertIn table]
  unfold accept at refusal
  cases valid : r.validate with
  | error g =>
      rw [valid] at refusal
      cases refusal
      rfl
  | ok u =>
      rw [valid] at refusal
      have checked : checkRow r.agreementId (.ofRetirement r) = .error f := refusal
      rw [checked]

theorem run_transact {α : Type} (work : Work α) (db : Database) :
    (transact work).run db =
      match work.run db with
      | (.ok a, after) => (.ok a, after)
      | (.error f, _) => (.error f, db) := rfl

theorem run_ofWork {α : Type} (work : Work α) (db : Database) :
    (Task.ofWork work).run db =
      match work.run db with
      | (.ok a, after) => (.ok a, after)
      | (.error f, after) => (.error (.store f), after) := rfl

theorem run_insert_granted (db : Database) (r : Retirement) :
    (insert .granted r).run db = (transact (insertIn r)).run db := by
  have run : (insert .granted r).run db =
      (do r.validate; transact (insertIn r) : Work Receipt).run db := rfl
  rw [run, run_bind, run_lift]
  cases valid : r.validate with
  | ok u => rfl
  | error f =>
      have failed : (insertIn r).run db = (.error f, db) := by
        unfold insertIn
        simp only [run_bind, run_lift, valid]
      rw [run_transact, failed]

theorem run_insert {db : Database} {rows : Catalog Row} (table : db.table = some (.standard rows))
    (r : Retirement) :
    (insert .granted r).run db =
      match r.validate with
      | .error f => (.error f, db)
      | .ok () =>
        match checkRow r.agreementId (.ofRetirement r) with
        | .error f => (.error f, db)
        | .ok () =>
          match rows.find? r.agreementId with
          | some earlier => ((earlier.toRetirement r.agreementId).map (⟨·, false⟩), db)
          | none =>
            match (Row.ofRetirement r).toRetirement r.agreementId with
            | .error f => (.error f, db)
            | .ok stored =>
              (.ok ⟨stored, true⟩, db.withRows (rows.insert r.agreementId (.ofRetirement r))) := by
  rw [run_insert_granted, run_transact, run_insertIn table]
  cases r.validate with
  | error f => rfl
  | ok u =>
      cases checkRow r.agreementId (.ofRetirement r) with
      | error f => rfl
      | ok u =>
          cases rows.find? r.agreementId with
          | some earlier =>
              dsimp only
              cases earlier.toRetirement r.agreementId <;> rfl
          | none =>
              dsimp only
              cases (Row.ofRetirement r).toRetirement r.agreementId <;> rfl

theorem run_insert_of_run_insertIn {db after : Database} {r : Retirement} {receipt : Receipt}
    (done : (insertIn r).run db = (.ok receipt, after)) :
    (insert .granted r).run db = (.ok receipt, after) := by
  rw [run_insert_granted, run_transact, done]

inductive Inserts : Database → List Receipt → Database → Prop
  | nil (db : Database) : Inserts db [] db
  | cons {db next last : Database} {r : Retirement} {receipt : Receipt} {receipts : List Receipt} :
      (insert .granted r).run db = (.ok receipt, next) → Inserts next receipts last →
      Inserts db (receipt :: receipts) last

theorem inserts_of_run_mapM {db after : Database} {records : List Retirement}
    {receipts : List Receipt} (done : (records.mapM insertIn).run db = (.ok receipts, after)) :
    Inserts db receipts after := by
  induction records generalizing db receipts with
  | nil =>
      rw [List.mapM_nil, run_pure] at done
      cases done
      exact .nil _
  | cons r rest ih =>
      simp only [List.mapM_cons, run_bind, run_pure] at done
      rcases first : (insertIn r).run db with ⟨_ | receipt, next⟩
      · rw [first] at done
        cases done
      · rw [first] at done
        rcases others : (rest.mapM insertIn).run next with ⟨_ | more, last⟩
        · simp only [others] at done
          cases done
        · simp only [others] at done
          cases done
          exact .cons (run_insert_of_run_insertIn first) (ih others)

theorem run_transaction_cases {α : Type} (locked : Bool) (work : Work α) (db : Database) :
    (∃ f, (transaction locked work).run db = (.error f, db)) ∨
      ∃ a after, (transaction locked work).run db = (.ok a, after) ∧
        work.run db = (.ok a, after) := by
  cases locked with
  | true => exact .inl ⟨lockedFailure, rfl⟩
  | false =>
      have run : (transaction false work).run db = (transact work).run db := rfl
      rcases all : work.run db with ⟨f | a, after⟩
      · exact .inl ⟨f, by simp only [run, run_transact, all]⟩
      · exact .inr ⟨a, after, by simp only [run, run_transact, all], rfl⟩

theorem insertAll_eq_transaction {access : WriteAccess} {records : List Retirement}
    (tried : access ≠ .denied ∨ records = []) :
    insertAll access records = transaction (access = .locked) (records.mapM insertIn) := by
  cases access with
  | granted => rfl
  | locked => rfl
  | denied =>
      cases records with
      | nil => rfl
      | cons r rest => simp at tried

theorem run_validate_refuseWriting (r : Retirement) (db : Database) :
    ∃ f, ∀ α : Type, (do r.validate; refuseWriting : Work α).run db = (.error f, db) := by
  simp only [refuseWriting, run_bind, run_lift, run_get]
  cases r.validate with
  | error f => exact ⟨f, fun α => rfl⟩
  | ok u =>
      dsimp only
      cases db.writable with
      | error f => exact ⟨f, fun α => rfl⟩
      | ok rows => exact ⟨_, fun α => rfl⟩

theorem run_insertAll_denied (r : Retirement) (rest : List Retirement) (db : Database) :
    ∃ f, (insertAll .denied (r :: rest)).run db = (.error f, db) := by
  obtain ⟨f, refused⟩ := run_validate_refuseWriting r db
  exact ⟨f, refused _⟩

theorem insertAll_cases (access : WriteAccess) (records : List Retirement) (db : Database) :
    (∃ f, (insertAll access records).run db = (.error f, db)) ∨
      ∃ receipts after, (insertAll access records).run db = (.ok receipts, after) ∧
        Inserts db receipts after := by
  by_cases tried : access ≠ .denied ∨ records = []
  · rw [insertAll_eq_transaction tried]
    rcases run_transaction_cases _ (records.mapM insertIn) db with failed | ⟨receipts, after, run, all⟩
    · exact .inl failed
    · exact .inr ⟨receipts, after, run, inserts_of_run_mapM all⟩
  · obtain ⟨denied, nonempty⟩ := not_or.mp tried
    obtain ⟨r, rest, rfl⟩ := List.exists_cons_of_ne_nil nonempty
    rw [Classical.not_not.mp denied]
    exact .inl (run_insertAll_denied r rest db)

end Database

end RetirementLedger

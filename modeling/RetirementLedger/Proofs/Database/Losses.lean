import RetirementLedger.Proofs.Database.Script
import RetirementLedger.Proofs.Store

namespace RetirementLedger.Database

/-- Each row of a current database is that of a valid retirement and can be read, unless it is lost. -/
structure Filed (db : Database) (lost : List (String × Row)) : Prop where
  current : (Store.database db).IsCurrent
  rows : ∀ rows, db.table = some (.standard rows) → ∀ e ∈ rows.entries,
    (∃ r : Retirement, r.validate = .ok () ∧ Row.entry r = e) ∧
      ((∃ stored, e.2.toRetirement e.1 = .ok stored) ∨ e ∈ lost)

variable {db after : Database} {lost more : List (String × Row)} {access : WriteAccess}

theorem filed_fresh : fresh.Filed [] := by
  refine ⟨Store.sound_fresh.current, fun rows table e member => ?_⟩
  cases table.symm.trans table_fresh
  cases member

theorem Filed.mono (filed : db.Filed lost) (wider : lost ⊆ more) : db.Filed more :=
  ⟨filed.current, fun rows table e member =>
    ⟨(filed.rows rows table e member).1, (filed.rows rows table e member).2.imp_right (wider ·)⟩⟩

theorem Filed.put (filed : db.Filed lost) {rows : Catalog Row} (table : db.table = some (.standard rows))
    {r : Retirement} (valid : r.validate = .ok ())
    (readable : (∃ stored, (Row.ofRetirement r).toRetirement r.agreementId = .ok stored) ∨
      Row.entry r ∈ lost) :
    (db.withRows (rows.insert r.agreementId (.ofRetirement r))).Filed lost := by
  refine ⟨⟨filed.current.1, _, rfl⟩, fun rows' table' e member => ?_⟩
  cases table'
  have held := Catalog.find?_eq_some_iff.mpr member
  rw [Catalog.find?_insert] at held
  split at held
  · next same =>
      obtain rfl : Row.entry r = e := Prod.ext same.symm (Option.some.inj held)
      exact ⟨⟨r, valid, rfl⟩, readable⟩
  · exact filed.rows rows table e (Catalog.find?_eq_some_iff.mp held)

theorem Filed.insert (filed : db.Filed lost) (r : Retirement) :
    ((Database.insert .granted r).run db).2.Filed lost := by
  obtain ⟨rows, table⟩ := filed.current.2
  rw [run_insert table]
  cases valid : r.validate with
  | error f => exact filed
  | ok u =>
      cases checkRow r.agreementId (.ofRetirement r) with
      | error f => exact filed
      | ok u =>
          cases rows.find? r.agreementId with
          | some earlier => exact filed
          | none =>
              cases read : (Row.ofRetirement r).toRetirement r.agreementId with
              | error f => exact filed
              | ok stored => exact filed.put table valid (.inl ⟨stored, read⟩)

theorem Filed.inserts (filed : db.Filed lost) {receipts : List Receipt}
    (inserts : Inserts db receipts after) : after.Filed lost := by
  induction inserts with
  | nil db => exact filed
  | @cons db next last r receipt receipts done rest ih =>
      have first := filed.insert r
      rw [done] at first
      exact ih first

namespace Script

variable {α : Type} (script : Script α)

theorem filed_work (filed : db.Filed lost) :
    ((script.work access).run db).2.Filed (lost ++ script.losses access db) := by
  induction script generalizing db lost with
  | finish result => exact filed.mono (List.subset_append_left _ _)
  | call c next ih =>
      rw [work, run_bind, run_lift_run, losses, ← List.append_assoc]
      refine ih _ ?_
      cases c with
      | find id =>
          rw [Call.run_find]
          exact filed.mono (List.subset_append_left _ _)
      | insert r =>
          rcases Call.run_insert_cases access r db with
            ⟨f, run, -⟩ | ⟨receipt, next, run, alone⟩ | ⟨f, rows, table, free, valid, unread, run⟩
          · rw [run]
            exact filed.mono (List.subset_append_left _ _)
          · have made := filed.insert r
            rw [alone] at made
            rw [run]
            exact made.mono (List.subset_append_left _ _)
          · -- The row is in the table, and counts among the losses of the script.
            rw [run, unread]
            exact (filed.mono (List.subset_append_left _ _)).put table valid (.inr (by simp))

/-- The rows that a transaction loses: it succeeds, and one of its insertions has failed. -/
def committedLosses (access : WriteAccess) (db : Database) : List (String × Row) :=
  if ((script.execute access).run db).1.isOk then script.losses access db else []

theorem filed_execute (filed : db.Filed lost) :
    ((script.execute access).run db).2.Filed (lost ++ script.committedLosses access db) := by
  rcases run_transaction_cases (access = .locked) (script.work access) db with
    ⟨f, failed⟩ | ⟨a, after, run, all⟩
  · have whole : (script.execute access).run db = (.error f, db) := failed
    rw [whole]
    exact filed.mono (List.subset_append_left _ _)
  · have whole : (script.execute access).run db = (.ok a, after) := run
    have filed := @filed_work _ _ access _ script filed
    rw [all] at filed
    rw [committedLosses, whole]
    exact filed

theorem calls_noting (receipts : List Receipt) (db : Database) :
    (script.noting receipts).calls access db = script.calls access db := by
  induction script generalizing receipts db with
  | finish result => rfl
  | call c next ih =>
      cases c with
      | find id => simp only [noting, calls, ih]
      | insert r => simp only [noting, calls, ih]

theorem after_execute_noting (db : Database) :
    (((script.noting []).execute access).run db).2 = ((script.execute access).run db).2 := by
  obtain ⟨receipts, after, noted, -⟩ := @run_work_noting _ access script [] db
  have answered : ((script.noting []).result access db).isOk = (script.result access db).isOk := by
    rw [run_work] at noted
    rw [(Prod.mk.inj noted).1]
    cases script.result access db <;> rfl
  simp only [run_execute, outcome]
  split
  · rfl
  · simp only [answered, entries, calls_noting]

end Script

end RetirementLedger.Database

import RetirementLedger.Database.Script
import RetirementLedger.Proofs.Database.Batch

namespace RetirementLedger

theorem run_lift_run {ε σ α : Type} (x : ExceptT ε (StateM σ) α) (s : σ) :
    (ExceptT.lift x.run : ExceptT ε (StateM σ) (Except ε α)).run s = (.ok (x.run s).1, (x.run s).2) := rfl

namespace Database

def fill (db : Database) (entries : List (String × Row)) : Database :=
  match db.table with
  | some (.standard rows) => db.withRows (rows.fill entries)
  | _ => db

namespace Call

def entries (access : WriteAccess) : Call → List (String × Row)
  | insert r => if access ≠ .denied ∧ (accept r).isOk then [Row.entry r] else []
  | find _ => []

def losses (access : WriteAccess) (c : Call) (db : Database) : List (String × Row) :=
  let step := (c.perform access).run db
  if step.1.isOk then []
  else (c.entries access).filter fun e => db.row? e.1 ≠ step.2.row? e.1

end Call

namespace Script

variable {α : Type}

def calls (access : WriteAccess) : Script α → Database → List Call
  | finish _, _ => []
  | call c next, db =>
    let step := (c.perform access).run db
    c :: (next step.1).calls access step.2

def result (access : WriteAccess) : Script α → Database → Except Failure α
  | finish result, _ => result
  | call c next, db =>
    let step := (c.perform access).run db
    (next step.1).result access step.2

def entries (access : WriteAccess) (script : Script α) (db : Database) : List (String × Row) :=
  (script.calls access db).flatMap (Call.entries access)

def losses (access : WriteAccess) : Script α → Database → List (String × Row)
  | finish _, _ => []
  | call c next, db =>
    let step := (c.perform access).run db
    c.losses access db ++ (next step.1).losses access step.2

/-- The script fails if one of its insertions has failed after the row was put in. -/
def FailsOnLoss (script : Script α) : Prop :=
  ∀ access db, (script.result access db).isOk = true → script.losses access db = []

def outcome (access : WriteAccess) (script : Script α) (db : Database) : Except Failure α × Database :=
  if access = .locked then (.error lockedFailure, db)
  else (script.result access db, if (script.result access db).isOk then db.fill (script.entries access db) else db)

end Script

variable {db : Database} {rows : Catalog Row}

theorem fill_eq (table : db.table = some (.standard rows)) (entries : List (String × Row)) :
    db.fill entries = db.withRows (rows.fill entries) := by
  rw [fill, table]

theorem fill_unwritable {f : Failure} (unwritable : db.writable = .error f)
    (entries : List (String × Row)) : db.fill entries = db := by
  unfold fill
  split
  · next table => simp [writable, table] at unwritable
  · rfl

theorem fill_nil (db : Database) : db.fill [] = db := by
  rcases db.writable_cases with ⟨f, unwritable⟩ | ⟨rows, table⟩
  · exact fill_unwritable unwritable []
  · exact (fill_eq table []).trans (withRows_self table)

theorem fill_append (db : Database) (entries more : List (String × Row)) :
    db.fill (entries ++ more) = (db.fill entries).fill more := by
  rcases db.writable_cases with ⟨f, unwritable⟩ | ⟨rows, table⟩
  · simp only [fill_unwritable unwritable]
  · rw [fill_eq table, fill_eq table, fill_eq rfl, Catalog.fill_append]
    rfl

theorem after_insertIn (db : Database) (r : Retirement) :
    ((insertIn r).run db).2 = db.fill (if (accept r).isOk then [Row.entry r] else []) := by
  rcases db.writable_cases with ⟨f, unwritable⟩ | ⟨rows, table⟩
  · obtain ⟨g, run⟩ := run_insertIn_unwritable unwritable r
    rw [run, fill_unwritable unwritable]
  · cases accepted : accept r with
    | error f =>
        rw [run_insertIn_refused table accepted]
        exact (fill_nil db).symm
    | ok u =>
        rw [run_insertIn_accepted table accepted]
        exact (fill_eq table _).symm

theorem Call.entries_denied {access : WriteAccess} (denied : access = .denied) (c : Call) :
    c.entries access = [] := by
  cases c with
  | insert r => exact if_neg fun tried => tried.1 denied
  | find id => rfl

theorem Call.run_find (access : WriteAccess) (id : String) (db : Database) :
    ((find id).perform access).run db = (db.find? id, db) := by
  rw [perform, run_bind, run_get]
  simp only [run_lift]

theorem Call.after_perform (access : WriteAccess) (c : Call) (db : Database) :
    ((c.perform access).run db).2 = db.fill (c.entries access) := by
  cases c with
  | insert r =>
      by_cases denied : access = .denied
      · obtain ⟨f, run⟩ := run_validate_refuseWriting r db
        rw [entries_denied denied, fill_nil]
        simp only [perform, denied, if_true, run]
      · simp only [perform, entries, denied, if_false, ne_eq, not_false_eq_true, true_and, after_insertIn]
  | find id => rw [entries, fill_nil, run_find]

/-- An insertion of a script changes nothing, or works as on its own, or is answered with a failure after
its row was put in. -/
theorem Call.run_insert_cases (access : WriteAccess) (r : Retirement) (db : Database) :
    (∃ f, ((insert r).perform access).run db = (.error f, db) ∧ (insert r).losses access db = []) ∨
      (∃ receipt after, ((insert r).perform access).run db = (.ok receipt, after) ∧
        (Database.insert .granted r).run db = (.ok receipt, after)) ∨
      ∃ f rows, db.table = some (.standard rows) ∧ rows.find? r.agreementId = none ∧
        r.validate = .ok () ∧ (insert r).losses access db = [Row.entry r] ∧
        ((insert r).perform access).run db =
          (.error f, db.withRows (rows.insert r.agreementId (.ofRetirement r))) := by
  have kept {f : Failure} (run : ((insert r).perform access).run db = (.error f, db)) :
      (insert r).losses access db = [] := by simp [losses, run]
  by_cases denied : access = .denied
  · obtain ⟨f, refused⟩ := run_validate_refuseWriting r db
    have run : ((insert r).perform access).run db = (.error f, db) := by
      simp only [perform, denied, if_true, refused]
    exact .inl ⟨f, run, kept run⟩
  have performed : (insert r).perform access = insertIn r := if_neg denied
  rcases db.writable_cases with ⟨f, unwritable⟩ | ⟨rows, table⟩
  · obtain ⟨g, run⟩ := run_insertIn_unwritable unwritable r
    exact .inl ⟨g, performed ▸ run, kept (performed ▸ run)⟩
  cases checks : accept r with
  | error f =>
      have run := run_insertIn_refused table checks
      exact .inl ⟨f, performed ▸ run, kept (performed ▸ run)⟩
  | ok u =>
      have run := run_insertIn_accepted table checks
      cases read : (standing rows r).toRetirement r.agreementId with
      | ok stored =>
          rw [read] at run
          exact .inr (.inl ⟨_, _, performed ▸ run, run_insert_of_run_insertIn run⟩)
      | error f =>
          rw [read, Row.entry] at run
          cases known : rows.find? r.agreementId with
          | some row =>
              rw [Catalog.fill_of_known known, withRows_self table] at run
              exact .inl ⟨f, performed ▸ run, kept (performed ▸ run)⟩
          | none =>
              rw [Catalog.fill_of_free known] at run
              refine .inr (.inr ⟨f, rows, table, known, (accept_eq_ok_iff.mp checks).1, ?_, performed ▸ run⟩)
              have free : db.row? r.agreementId = none := (row?_eq table _).trans known
              have lost : (db.withRows (rows.insert r.agreementId (.ofRetirement r))).row? r.agreementId =
                  some (.ofRetirement r) := by
                rw [row?_eq rfl, Catalog.find?_insert, if_pos rfl]
              simp [losses, performed, run, entries, denied, checks, Row.entry, free, lost, Except.isOk,
                Except.toBool, Except.map]

namespace Script

variable {α : Type} {access : WriteAccess}

theorem run_work (script : Script α) (db : Database) :
    (script.work access).run db = (script.result access db, db.fill (script.entries access db)) := by
  induction script generalizing db with
  | finish result => simp [work, Script.result, entries, calls, fill_nil]
  | call c next ih =>
      rw [work, run_bind, run_lift_run]
      simp only [ih, Script.result, entries, calls, List.flatMap_cons, fill_append, Call.after_perform]

theorem run_execute (access : WriteAccess) (script : Script α) (db : Database) :
    (script.execute access).run db = script.outcome access db := by
  by_cases locked : access = .locked
  · subst locked
    rfl
  · have run : (script.execute access).run db = (transact (script.work access)).run db := by
      simp only [execute, locked, decide_false]
      rfl
    rw [run, run_transact, run_work, outcome, if_neg locked]
    cases script.result access db <;> rfl

theorem outcome_denied (script : Script α) (db : Database) : (script.outcome .denied db).2 = db := by
  have nothing : script.entries .denied db = [] :=
    List.flatMap_eq_nil_iff.mpr fun c _ => Call.entries_denied rfl c
  rw [outcome, if_neg (by decide), nothing, fill_nil, ite_self]

theorem run_work_noting (script : Script α) (receipts : List Receipt) (db : Database) :
    ∃ more after,
      ((script.noting receipts).work access).run db =
          ((script.result access db).map fun _ => receipts ++ more, after) ∧
        (script.losses access db = [] → Inserts db more after) := by
  induction script generalizing receipts db with
  | finish result => exact ⟨[], db, by rw [List.append_nil]; rfl, fun _ => .nil db⟩
  | call c next ih =>
      cases c with
      | find id =>
          obtain ⟨more, after, run, inserts⟩ := ih (db.find? id) receipts db
          have performed := Call.run_find access id db
          have unlost : (Call.find id).losses access db = [] := by simp [Call.losses, Call.entries]
          refine ⟨more, after, ?_, ?_⟩
          · rw [noting, work, run_bind, run_lift_run, performed, Script.result, performed]
            exact run
          · rw [losses, unlost, performed]
            exact inserts
      | insert r =>
          obtain ⟨more, after, run, inserts⟩ := ih (((Call.insert r).perform access).run db).1
            (receipts ++ (((Call.insert r).perform access).run db).1.toOption.toList)
            (((Call.insert r).perform access).run db).2
          have whole : (((Script.call (.insert r) next).noting receipts).work access).run db =
              (((next (((Call.insert r).perform access).run db).1).noting
                (receipts ++ (((Call.insert r).perform access).run db).1.toOption.toList)).work access).run
                (((Call.insert r).perform access).run db).2 := by
            rw [noting, work, run_bind, run_lift_run]
          refine ⟨(((Call.insert r).perform access).run db).1.toOption.toList ++ more, after, ?_, fun kept => ?_⟩
          · rw [whole, run, List.append_assoc]
            rfl
          · rw [losses, List.append_eq_nil_iff] at kept
            have inserts := inserts kept.2
            rcases Call.run_insert_cases access r db with
              ⟨f, failed, -⟩ | ⟨receipt, next, done, alone⟩ | ⟨f, rows, -, -, -, lost, -⟩
            · rw [failed] at inserts ⊢
              exact inserts
            · rw [done] at inserts ⊢
              exact .cons alone inserts
            · simp [kept.1] at lost

/-- A transaction that fails on loss leaves the database as it was, or as insertions on their own do. -/
theorem execute_noting_cases {script : Script α} (failsOnLoss : script.FailsOnLoss) (access : WriteAccess)
    (db : Database) :
    (∃ f, ((script.noting []).execute access).run db = (.error f, db)) ∨
      ∃ receipts after, ((script.noting []).execute access).run db = (.ok receipts, after) ∧
        Inserts db receipts after := by
  rcases run_transaction_cases (access = .locked) ((script.noting []).work access) db with
    failed | ⟨receipts, after, run, all⟩
  · exact .inl failed
  · obtain ⟨more, last, whole, inserts⟩ := @run_work_noting _ access script [] db
    rw [all] at whole
    cases answer : script.result access db with
    | error f =>
        rw [answer] at whole
        cases whole
    | ok a =>
        rw [answer] at whole
        cases whole
        exact .inr ⟨_, _, run, inserts (failsOnLoss access db (by rw [answer]; rfl))⟩

def insertions (receipts : List Receipt) : List Retirement → Script (List Receipt)
  | [] => .finish (.ok receipts)
  | r :: records => .call (.insert r) fun
    | .ok receipt => insertions (receipts ++ [receipt]) records
    | .error f => .finish (.error f)

theorem run_work_insertions (allowed : access ≠ .denied) (receipts : List Receipt)
    (records : List Retirement) (db : Database) :
    ((insertions receipts records).work access).run db =
      (do return receipts ++ (← records.mapM insertIn) : Work (List Receipt)).run db := by
  induction records generalizing receipts db with
  | nil =>
      rw [List.mapM_nil, pure_bind, List.append_nil]
      rfl
  | cons r records ih =>
      have performed : (Call.insert r).perform access = insertIn r := if_neg allowed
      rw [insertions, work, run_bind, run_lift_run, performed]
      simp only [List.mapM_cons, bind_assoc, pure_bind, run_bind]
      rcases (insertIn r).run db with ⟨f | receipt, next⟩
      · rfl
      · simp only [ih, run_bind, List.append_assoc, List.singleton_append]

theorem insertAll_eq_execute (access : WriteAccess) (records : List Retirement) :
    insertAll access records = (insertions [] records).execute access := by
  by_cases tried : access ≠ .denied ∨ records = []
  · rw [insertAll_eq_transaction tried, execute]
    congr 1
    funext db
    change (records.mapM insertIn).run db = ((insertions [] records).work access).run db
    rcases tried with allowed | rfl
    · rw [run_work_insertions allowed]
      simp
    · rfl
  · obtain ⟨denied, nonempty⟩ := not_or.mp tried
    obtain ⟨r, rest, rfl⟩ := List.exists_cons_of_ne_nil nonempty
    rw [Classical.not_not.mp denied]
    funext db
    obtain ⟨f, refused⟩ := run_validate_refuseWriting r db
    refine (refused _).trans ?_
    have answer : (Call.perform .denied (.insert r)).run db = (.error f, db) := refused _
    change _ = ((insertions [] (r :: rest)).execute .denied).run db
    rw [run_execute, outcome, if_neg (by decide), insertions, Script.result, answer]
    rfl

end Script

end Database

end RetirementLedger

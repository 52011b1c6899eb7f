import RetirementLedger.Database.Search

namespace RetirementLedger

namespace Row

def ofRetirement (r : Retirement) : Row := ⟨r.reason, r.retiredAtMillis, r.retiredBy⟩

def toRetirement (agreementId : String) (row : Row) : Except Failure Retirement :=
  match Instant.ofUnixMillis? row.retiredAtMillis with
  | some t => .ok ⟨agreementId, row.reason, t, row.retiredBy⟩
  | none => .error (Instant.millisFailure row.retiredAtMillis)

end Row

namespace Database

abbrev Work (α : Type) := ExceptT Failure (StateM Database) α

def noTable : Failure := .persistence "no such table: agreement_retirements"

def noColumn (columns : List String) (statement : String) : Failure :=
  let missing :=
    (RetirementTable.standardColumns.find? fun c => !columns.contains c).getD "retired_at_ms"
  let before := RetirementTable.standardColumns.takeWhile (· != missing)
  let offset := ("SELECT " ++ String.join (before.map (· ++ ", "))).length
  .persistence ("no such column: " ++ missing ++ " in " ++ statement ++ " at offset " ++
    toString offset)

def readable (db : Database) (statement : String) : Except Failure (Catalog Row) :=
  match db.table with
  | none => .error noTable
  | some (.standard rows) => .ok rows
  | some (.foreign columns _ _) => .error (noColumn columns statement)

def find? (db : Database) (agreementId : String) : Except Failure (Option Retirement) := do
  let rows ← db.readable
    ("SELECT " ++ Select.columnList ++ " FROM agreement_retirements WHERE agreement_id = ?1")
  match rows.find? agreementId with
  | none => return none
  | some row => return some (← row.toRetirement agreementId)

def select (db : Database) (s : Selection) : Except Failure (List Retirement) := do
  let statement := Select.ofSelection s
  statement.checkSize
  let rows ← db.readable statement.sql
  let entries ← statement.run db.indexed rows
  entries.mapM fun (id, row) => row.toRetirement id

def listingOrder : List (Column × SortOrder) :=
  [(.retiredAt, .ascending), (.agreementId, .ascending)]

def list (db : Database) : Except Failure (List Retirement) := do
  let rows ← db.readable ("SELECT " ++ Select.columnList ++
    " FROM agreement_retirements\n                 ORDER BY retired_at_ms ASC, agreement_id ASC")
  (rows.entries.mergeSort (Select.precedes listingOrder)).mapM fun (id, row) => row.toRetirement id

/-- The table's own conditions on a row; text counts up to its first NUL. -/
def checkRow (agreementId : String) (row : Row) : Except Failure Unit :=
  let isEmpty (s : String) := (SqlValue.untilNul s).isEmpty
  if isEmpty agreementId then
    .error (.persistence "CHECK constraint failed: length(agreement_id) > 0")
  else if isEmpty row.reason then
    .error (.persistence "CHECK constraint failed: length(reason) > 0")
  else .ok ()

def writable (db : Database) : Except Failure (Catalog Row) :=
  match db.table with
  | none => .error noTable
  | some (.standard rows) => .ok rows
  | some (.foreign columns _ _) =>
    let missing :=
      (RetirementTable.standardColumns.find? fun c => !columns.contains c).getD "retired_at_ms"
    .error (.persistence ("table agreement_retirements has no column named " ++ missing))

def putRow (agreementId : String) (row : Row) : Work Bool := do
  let db ← get
  let rows ← db.writable
  checkRow agreementId row
  if rows.contains agreementId then return false
  else
    set { db with table := some (.standard (rows.insert agreementId row)) }
    return true

def insertIn (r : Retirement) : Work Receipt := do
  r.validate
  let wasNew ← putRow r.agreementId (.ofRetirement r)
  match ← (← get).find? r.agreementId with
  | some stored => return ⟨stored, wasNew⟩
  | none =>
    throw (.persistence ("retirement for " ++ r.agreementId ++ " missing after insert"))

def transact {α : Type} (work : Work α) : Work α := fun db =>
  match work db with
  | (.ok a, after) => (.ok a, after)
  | (.error f, _) => (.error f, db)

def lockedFailure : Failure := .transientStore "database is locked"

/-- What comes of writing where nobody may: the statement is still read first. -/
def refuseWriting {α : Type} : Work α := do
  let _ ← (← get).writable
  throw (.persistence "attempt to write a readonly database")

def transaction {α : Type} (locked : Bool) (work : Work α) : Work α := do
  if locked then throw lockedFailure
  transact work

/-- Stores retirements in order in one transaction. Where nobody may write, it gets as far as the first
one that is to be written. -/
def insertAll (access : WriteAccess) (records : List Retirement) : Work (List Receipt) :=
  match access, records with
  | .denied, r :: _ => do
    r.validate
    refuseWriting
  | access, records => transaction (access = .locked) (records.mapM insertIn)

def insert (access : WriteAccess) (r : Retirement) : Work Receipt := do
  r.validate
  match access with
  | .granted => transact (insertIn r)
  | .locked => throw lockedFailure
  | .denied => refuseWriting

def fresh : Database := ((migrate .granted).run {}).2

end Database

end RetirementLedger

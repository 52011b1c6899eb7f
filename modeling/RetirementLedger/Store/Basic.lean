import RetirementLedger.Database.Records
import RetirementLedger.Store.Ledger

namespace RetirementLedger

inductive Store where
  | memory (ledger : Ledger)
  | database (db : Database)

namespace Store

def insert (s : Store) (r : Retirement) : Except Failure Receipt × Store :=
  match s with
  | .memory ledger =>
    let (reply, ledger) := ledger.insert r
    (reply, .memory ledger)
  | .database db =>
    let (reply, db) := (Database.insert .granted r).run db
    (reply, .database db)

def find? (s : Store) (agreementId : String) : Except Failure (Option Retirement) :=
  match s with
  | .memory ledger => .ok (ledger.find? agreementId)
  | .database db => db.find? agreementId

def select (s : Store) (selection : Selection) : Except Failure (List Retirement) :=
  match s with
  | .memory ledger => .ok (ledger.select selection)
  | .database db => db.select selection

end Store

end RetirementLedger

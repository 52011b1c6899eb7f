import RetirementLedger.Catalog
import RetirementLedger.Query.Selection

namespace RetirementLedger

structure Ledger where
  records : Catalog Retirement
  deriving Inhabited

namespace Ledger

def empty : Ledger := ⟨∅⟩

def size (l : Ledger) : Nat := l.records.size

def find? (l : Ledger) (agreementId : String) : Option Retirement := l.records.find? agreementId

def insert (l : Ledger) (r : Retirement) : Except Failure Receipt × Ledger :=
  match r.validate with
  | .error f => (.error f, l)
  | .ok () =>
    match l.find? r.agreementId with
    | some earlier => (.ok ⟨earlier, false⟩, l)
    | none => (.ok ⟨r, true⟩, ⟨l.records.insert r.agreementId r⟩)

def select (l : Ledger) (s : Selection) : List Retirement := s.apply l.records.values

end Ledger

end RetirementLedger

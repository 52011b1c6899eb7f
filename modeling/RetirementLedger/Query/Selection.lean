import RetirementLedger.Query.Predicate

namespace RetirementLedger

inductive SortField where
  | retiredAt
  | agreementId
  deriving Repr, DecidableEq, Inhabited

inductive SortOrder where
  | ascending
  | descending
  deriving Repr, DecidableEq, Inhabited

def defaultLimit : UInt32 := 50

def maxLimit : Nat := 1000

structure Selection where
  predicates : List Predicate
  offset : UInt32
  limit : UInt32
  sortField : SortField
  sortOrder : SortOrder
  limit_bound : 1 ≤ limit.toNat ∧ limit.toNat ≤ maxLimit
  deriving DecidableEq

namespace Selection

def make (predicates : List Predicate) (offset limit : UInt32) (sortField : SortField)
    (sortOrder : SortOrder) : Except Failure Selection :=
  if h : 1 ≤ limit.toNat ∧ limit.toNat ≤ maxLimit then
    .ok ⟨predicates, offset, limit, sortField, sortOrder, h⟩
  else
    .error (.invalidArgument
      ("limit MUST be in [1, " ++ toString maxLimit ++ "], got " ++ toString limit.toNat))

def holds (s : Selection) (r : Retirement) : Bool := s.predicates.all (·.holds r)

def precedes (field : SortField) (a b : Retirement) : Bool :=
  match field with
  | .retiredAt =>
    a.retiredAtMillis < b.retiredAtMillis ||
      (a.retiredAtMillis == b.retiredAtMillis && a.agreementId ≤ b.agreementId)
  | .agreementId => a.agreementId ≤ b.agreementId

def sort (s : Selection) (records : List Retirement) : List Retirement :=
  let ascending := records.mergeSort (precedes s.sortField)
  match s.sortOrder with
  | .ascending => ascending
  | .descending => ascending.reverse

def page (s : Selection) (records : List Retirement) : List Retirement :=
  (records.drop s.offset.toNat).take s.limit.toNat

def apply (s : Selection) (records : List Retirement) : List Retirement :=
  s.page (s.sort (records.filter s.holds))

end Selection

namespace SortField

def name : SortField → String
  | .retiredAt => "retired_at"
  | .agreementId => "agreement_id"

def ofName? : String → Option SortField
  | "retired_at" => some .retiredAt
  | "agreement_id" => some .agreementId
  | _ => none

def toJson (f : SortField) : Json := .text f.name

def ofJson? (j : Json) : Option SortField := do ofName? (← j.constant?)

end SortField

namespace SortOrder

def name : SortOrder → String
  | .ascending => "asc"
  | .descending => "desc"

def ofName? : String → Option SortOrder
  | "asc" => some .ascending
  | "desc" => some .descending
  | _ => none

def toJson (o : SortOrder) : Json := .text o.name

def ofJson? (j : Json) : Option SortOrder := do ofName? (← j.constant?)

end SortOrder

end RetirementLedger

import RetirementLedger.Query.Criterion
import RetirementLedger.Query.Selection

namespace RetirementLedger

structure QuerySpec where
  criteria : List Criterion := []
  offset : UInt32 := 0
  limit : UInt32 := defaultLimit
  sortField : SortField := .retiredAt
  sortOrder : SortOrder := .ascending
  deriving DecidableEq, Inhabited

structure RetirementQuery where
  agreementId : Option String := none
  agreementIdPrefix : Option String := none
  reason : Option String := none
  reasonPrefix : Option String := none
  retiredAfter : Option Instant := none
  retiredBefore : Option Instant := none
  offset : Option UInt32 := none
  limit : Option UInt32 := none
  order : Option SortOrder := none
  deriving DecidableEq, Inhabited

def Json.word32 (n : UInt32) : Json := .nat n.toNat

def Json.word32? (j : Json) : Option UInt32 := (j.word? 32).map UInt32.ofNat

namespace QuerySpec

/-- The first criterion that makes no sense is reported, the limit only after all criteria. -/
def compile (spec : QuerySpec) : Except Failure Selection := do
  let predicates ← spec.criteria.mapM Criterion.compile
  Selection.make predicates spec.offset spec.limit spec.sortField spec.sortOrder

def fields : List (List String) :=
  [["criteria"], ["offset"], ["limit"], ["sort_field"], ["sort_order"]]

def toJson (spec : QuerySpec) : Json :=
  .ofFields [("criteria", .array (spec.criteria.map Criterion.toJson)),
    ("offset", .word32 spec.offset), ("limit", .word32 spec.limit),
    ("sort_field", spec.sortField.toJson), ("sort_order", spec.sortOrder.toJson)]

def ofJson? (j : Json) : Option QuerySpec := do
  let [criteria, offset, limit, sortField, sortOrder] ← j.slots? fields | none
  return {
    criteria := ← criteria.withDefault [] (Json.list? Criterion.ofJson?)
    offset := ← offset.withDefault 0 Json.word32?
    limit := ← limit.withDefault defaultLimit Json.word32?
    sortField := ← sortField.withDefault .retiredAt SortField.ofJson?
    sortOrder := ← sortOrder.withDefault .ascending SortOrder.ofJson? }

end QuerySpec

namespace RetirementQuery

def prefixPattern (start : String) : String := Like.escape start ++ "%"

def predicates (q : RetirementQuery) : List Predicate :=
  (q.agreementId.map (.textEq .agreementId)).toList ++
    (q.agreementIdPrefix.map fun p => .textLike .agreementId (prefixPattern p)).toList ++
    (q.reason.map (.textEq .reason)).toList ++
    (q.reasonPrefix.map fun p => .textLike .reason (prefixPattern p)).toList ++
    (q.retiredAfter.map fun t => .atGt t.unixMillis).toList ++
    (q.retiredBefore.map fun t => .atLt t.unixMillis).toList

def compile (q : RetirementQuery) : Except Failure Selection :=
  Selection.make q.predicates (q.offset.getD 0) (q.limit.getD defaultLimit) .retiredAt
    (q.order.getD .ascending)

def fields : List (List String) :=
  [["agreement_id"], ["agreement_id_prefix"], ["reason"], ["reason_prefix"], ["retired_after"],
    ["retired_before"], ["offset"], ["limit"], ["order"]]

def toJson? (q : RetirementQuery) : Option Json := do
  let instant : Option Instant → Option Json
    | none => some .null
    | some t => t.toJson?
  let after ← instant q.retiredAfter
  let before ← instant q.retiredBefore
  return .ofFields [("agreement_id", .ofOption .text q.agreementId),
    ("agreement_id_prefix", .ofOption .text q.agreementIdPrefix),
    ("reason", .ofOption .text q.reason), ("reason_prefix", .ofOption .text q.reasonPrefix),
    ("retired_after", after), ("retired_before", before),
    ("offset", .ofOption .word32 q.offset), ("limit", .ofOption .word32 q.limit),
    ("order", .ofOption SortOrder.toJson q.order)]

def ofJson? (j : Json) : Option RetirementQuery := do
  let [id, idPrefix, reason, reasonPrefix, after, before, offset, limit, order] ← j.slots? fields
    | none
  let text := fun (slot : Json.Slot) => slot.withDefault none (Json.nullable? Json.text?)
  let instant := fun (slot : Json.Slot) => slot.withDefault none (Json.nullable? Instant.ofJson?)
  let word := fun (slot : Json.Slot) => slot.withDefault none (Json.nullable? Json.word32?)
  return {
    agreementId := ← text id
    agreementIdPrefix := ← text idPrefix
    reason := ← text reason
    reasonPrefix := ← text reasonPrefix
    retiredAfter := ← instant after
    retiredBefore := ← instant before
    offset := ← word offset
    limit := ← word limit
    order := ← order.withDefault none (Json.nullable? SortOrder.ofJson?) }

end RetirementQuery

end RetirementLedger

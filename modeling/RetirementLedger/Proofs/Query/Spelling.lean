import RetirementLedger.Proofs.Http.Form
import RetirementLedger.Proofs.Text.Numeral
import RetirementLedger.Proofs.Wire

namespace RetirementLedger

def Instant.text (t : Instant) : String := .ofList t.rfc3339Chars

namespace RetirementQuery

structure IsWritable (q : RetirementQuery) : Prop where
  after : ∀ t ∈ q.retiredAfter, t.isWritable = true
  before : ∀ t ∈ q.retiredBefore, t.isWritable = true

instance (q : RetirementQuery) : Decidable q.IsWritable :=
  decidable_of_iff ((∀ t ∈ q.retiredAfter, t.isWritable = true) ∧
      ∀ t ∈ q.retiredBefore, t.isWritable = true)
    ⟨fun h => ⟨h.1, h.2⟩, fun h => ⟨h.after, h.before⟩⟩

def criteria (q : RetirementQuery) : List Criterion :=
  (q.agreementId.map fun id => ⟨.text .agreementId, .eq, .one id⟩).toList ++
    (q.agreementIdPrefix.map fun p => ⟨.text .agreementId, .like, .one (prefixPattern p)⟩).toList ++
    (q.reason.map fun reason => ⟨.text .reason, .eq, .one reason⟩).toList ++
    (q.reasonPrefix.map fun p => ⟨.text .reason, .like, .one (prefixPattern p)⟩).toList ++
    (q.retiredAfter.map fun t => ⟨.retiredAt, .gt, .one t.text⟩).toList ++
    (q.retiredBefore.map fun t => ⟨.retiredAt, .lt, .one t.text⟩).toList

def spelled (q : RetirementQuery) : QuerySpec where
  criteria := q.criteria
  offset := q.offset.getD 0
  limit := q.limit.getD defaultLimit
  sortField := .retiredAt
  sortOrder := q.order.getD .ascending

section
variable {α β γ : Type} {f : α → Except Failure β}

end

def numeral (n : UInt32) : String := .ofList (Text.natDigits n.toNat)

def formFields (q : RetirementQuery) : List (String × Option String) :=
  [("agreement_id", q.agreementId), ("agreement_id_prefix", q.agreementIdPrefix),
    ("reason", q.reason), ("reason_prefix", q.reasonPrefix),
    ("retired_after", q.retiredAfter.map Instant.text),
    ("retired_before", q.retiredBefore.map Instant.text),
    ("offset", q.offset.map numeral), ("limit", q.limit.map numeral),
    ("order", q.order.map SortOrder.name)]

def pairs (q : RetirementQuery) : List (String × String) := Http.Form.pairsOf q.formFields

end RetirementQuery

end RetirementLedger

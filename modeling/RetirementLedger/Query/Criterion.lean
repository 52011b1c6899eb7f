import RetirementLedger.Query.Predicate

namespace RetirementLedger

inductive QueryField where
  | text (field : TextField)
  | retiredAt
  deriving Repr, DecidableEq, Inhabited

inductive Operator where
  | eq
  | like
  | isIn
  | gt
  | lt
  | between
  deriving Repr, DecidableEq, Inhabited

inductive CriterionValue where
  | one (value : String)
  | many (values : List String)
  deriving Repr, DecidableEq, Inhabited

structure Criterion where
  field : QueryField
  operator : Operator
  value : CriterionValue
  deriving Repr, DecidableEq, Inhabited

namespace QueryField

def name : QueryField → String
  | .text field => field.name
  | .retiredAt => "retired_at"

def ofName? : String → Option QueryField
  | "agreement_id" => some (.text .agreementId)
  | "reason" => some (.text .reason)
  | "retired_by" => some (.text .retiredBy)
  | "retired_at" => some .retiredAt
  | _ => none

def toJson (f : QueryField) : Json := .text f.name

def ofJson? (j : Json) : Option QueryField := do ofName? (← j.constant?)

end QueryField

namespace Operator

def name : Operator → String
  | .eq => "EQ"
  | .like => "LIKE"
  | .isIn => "IN"
  | .gt => "GT"
  | .lt => "LT"
  | .between => "BETWEEN"

def ofName? : String → Option Operator
  | "EQ" | "=" => some .eq
  | "LIKE" | "like" => some .like
  | "IN" | "in" => some .isIn
  | "GT" | ">" => some .gt
  | "LT" | "<" => some .lt
  | "BETWEEN" | "between" => some .between
  | _ => none

def toJson (o : Operator) : Json := .text o.name

def ofJson? (j : Json) : Option Operator := do ofName? (← j.constant?)

end Operator

namespace CriterionValue

def toJson : CriterionValue → Json
  | .one value => .text value
  | .many values => .array (values.map .text)

def ofJson? : Json → Option CriterionValue
  | .string s => s.map .one
  | .array items => (items.mapM Json.text?).map .many
  | _ => none

end CriterionValue

namespace Criterion

def refuse (c : Criterion) (detail : String) : Failure :=
  .invalidArgument
    ("criterion " ++ c.field.name ++ " " ++ c.operator.name ++ " " ++ detail)

def readMillis (raw : String) : Except Failure Int :=
  match Instant.ofText? raw with
  | some t => .ok t.unixMillis
  | none => .error (.invalidArgument ("invalid retired_at timestamp: " ++ raw))

def compileAt (c : Criterion) : Except Failure Predicate :=
  match c.operator, c.value with
  | .eq, .one raw => do return .atEq (← readMillis raw)
  | .gt, .one raw => do return .atGt (← readMillis raw)
  | .lt, .one raw => do return .atLt (← readMillis raw)
  | .between, .many [first, last] => do
    let low ← readMillis first
    let high ← readMillis last
    if low ≤ high then return .atBetween low high
    else throw (c.refuse "requires lower bound <= upper bound")
  | .between, _ => .error (c.refuse "requires exactly two timestamps")
  | .like, _ | .isIn, _ => .error (c.refuse "is not supported")
  | _, .many _ => .error (c.refuse "requires a single timestamp")

def compileText (c : Criterion) (field : TextField) : Except Failure Predicate :=
  match c.operator, c.value with
  | .eq, .one value => .ok (.textEq field value)
  | .like, .one pattern => .ok (.textLike field pattern)
  | .isIn, .many [] => .error (c.refuse "requires at least one value")
  | .isIn, .many values => .ok (.textIn field values)
  | .isIn, .one value => .ok (.textIn field [value])
  | .gt, _ | .lt, _ | .between, _ => .error (c.refuse "is only supported on retired_at")
  | .eq, .many _ | .like, .many _ => .error (c.refuse "requires a single value")

def compile (c : Criterion) : Except Failure Predicate :=
  match c.field with
  | .retiredAt => c.compileAt
  | .text field => c.compileText field

def fields : List (List String) := [["field"], ["operator"], ["value"]]

def toJson (c : Criterion) : Json :=
  .ofFields [("field", c.field.toJson), ("operator", c.operator.toJson), ("value", c.value.toJson)]

def ofJson? (j : Json) : Option Criterion := do
  let [field, operator, value] ← j.slots? fields | none
  return ⟨← field.required QueryField.ofJson?, ← operator.required Operator.ofJson?,
    ← value.required CriterionValue.ofJson?⟩

end Criterion

end RetirementLedger

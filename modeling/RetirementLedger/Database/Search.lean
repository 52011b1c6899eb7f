import RetirementLedger.Catalog
import RetirementLedger.Database.Route

namespace RetirementLedger

namespace Route

def reaches (route : Route) (condition : Condition) (entry : String × Row) : Bool :=
  route.terms.all fun t =>
    match t.restriction, t.column.of entry with
    | .start literal _, .text s => literal.isPrefixOf s.toList
    | .start _ _, _ => false
    | _, _ => (condition[t.place]?).any fun (clause, values) => clause.holds values entry

def remaining (route : Route) (condition : Condition) : Condition :=
  let left := condition.zipIdx.filterMap fun (c, place) =>
    if (answered route.terms).contains place then none else some c
  let covers (c : Clause × List SqlValue) : Bool :=
    route.index.any fun index => index.columns.contains c.1.column
  left.filter covers ++ left.filter (!covers ·)

end Route

namespace Select

def test (entry : String × Row) : Condition → Except Failure Bool
  | [] => .ok true
  | (clause, values) :: rest =>
    if clause.isTooComplex values then
      .error (.persistence "LIKE or GLOB pattern too complex")
    else if clause.holds values entry then test entry rest
    else .ok false

def filter (condition : Condition) :
    List (String × Row) → Except Failure (List (String × Row))
  | [] => .ok []
  | entry :: rest => do
    let kept ← test entry condition
    let others ← filter condition rest
    return if kept then entry :: others else others

def run (statement : Select) (migrated : Bool) (rows : Catalog Row) :
    Except Failure (List (String × Row)) :=
  match bind statement.clauses statement.values with
  | (condition, [.integer limit, .integer offset]) => do
    let route := Route.choose condition (statement.orderBy.map (·.1)) migrated
    let entries ← filter (route.remaining condition)
      (rows.entries.filter (route.reaches condition))
    return ((entries.mergeSort (precedes statement.orderBy)).drop offset.toNat).take limit.toNat
  | _ => .ok []

end Select

end RetirementLedger

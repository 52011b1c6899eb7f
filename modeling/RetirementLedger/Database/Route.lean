import RetirementLedger.Database.Select

/-!
Routes: the ways to the rows that a statement asks for, through the whole table or through an index.
`Route.choose` takes the one that is expected to cost least.

The choice shows in LIKE. A route through an index takes a pattern's literal start, compares it by
code points, and never looks at rows that do not start like that; where no such route is taken, rows
are compared with the whole pattern as LIKE sees it.

Nothing is known about the rows, so estimates assume a table of `2 ^ 20` rows. Estimates of rows and
costs are logarithms: ten more is twice as much.
-/
namespace RetirementLedger

namespace Estimate

def ofCount (n : Nat) : Int :=
  if n < 2 then 0
  else
    let power := n.log2
    let leading := if 3 ≤ power then n >>> (power - 3) else n <<< (3 - power)
    10 * power + [0, 2, 3, 5, 6, 7, 8, 9].getD (leading % 8) 0

/-- The estimate of a sum exceeds that of the greater summand by this. -/
def surplus (difference : Nat) : Int :=
  [10, 10, 9, 9, 8, 8, 7, 7, 7, 6, 6, 6, 5, 5, 5, 4, 4, 4, 4, 3, 3, 3, 3, 3, 3, 2, 2, 2, 2, 2, 2,
    2].getD difference (if difference ≤ 49 then 1 else 0)

def add (a b : Int) : Int := max a b + surplus (a - b).natAbs

def search (rows : Int) : Int := if rows ≤ 10 then 0 else ofCount rows.toNat - 33

def tableRows : Int := 200

end Estimate

inductive Index where
  | reason
  | retiredAt
  | agreementId
  deriving Repr, DecidableEq

namespace Index

def columns : Index → List Column
  | .reason => [.reason]
  | .retiredAt => [.retiredAt, .agreementId]
  | .agreementId => [.agreementId]

def entryCost : Index → Int
  | .reason | .agreementId => 12
  | .retiredAt => 13

def rowsGiven : Index → Nat → Int
  | .agreementId, _ => 0
  | _, 1 => 33
  | _, _ => 32

def all (migrated : Bool) : List Index :=
  if migrated then [.reason, .retiredAt, .agreementId] else [.agreementId]

end Index

inductive Restriction where
  | equal
  | isIn (count : Nat)
  | lower
  | upper
  /-- The literal start of a LIKE pattern, and whether it says all that the pattern says. -/
  | start (literal : List Char) (complete : Bool)
  deriving Repr, DecidableEq

structure Term where
  place : Nat
  column : Column
  restriction : Restriction
  deriving Repr, DecidableEq

namespace Clause

def literalStart : List Char → List Char × Bool
  | [] | ['\\'] => ([], false)
  | ['%'] => ([], true)
  | '%' :: _ | '_' :: _ => ([], false)
  | '\\' :: c :: rest | c :: rest => let (literal, complete) := literalStart rest
    (c :: literal, complete)

def isEquation : Clause → Bool
  | .equal _ | .isIn _ 1 => true
  | _ => false

def ownRestriction? : Clause → Option Restriction
  | .equal _ | .isIn _ 1 => some .equal
  | .isIn _ count => some (.isIn count)
  | .greater _ => some .lower
  | .less _ => some .upper
  | .like _ | .between _ => none

def impliedRestrictions (clause : Clause) (values : List SqlValue) : List Restriction :=
  match clause, values with
  | .between _, _ => [.lower, .upper]
  | .like _, [.text pattern] =>
    let (literal, complete) := literalStart (SqlValue.untilNul pattern).toList
    if literal.isEmpty then [] else [.start literal complete]
  | _, _ => []

def derivedCount (clause : Clause) (values : List SqlValue) : Nat :=
  2 * min 1 (clause.impliedRestrictions values).length

end Clause

abbrev Condition := List (Clause × List SqlValue)

namespace Condition

/-- The terms of a condition: what the clauses say in order, then what follows from them, from the
last one to the first. -/
def terms (condition : Condition) : List Term :=
  let placed := condition.zipIdx
  placed.filterMap (fun ((clause, _), place) =>
      clause.ownRestriction?.map fun r => ⟨place, clause.column, r⟩) ++
    placed.reverse.flatMap fun ((clause, values), place) =>
      (clause.impliedRestrictions values).map fun r => ⟨place, clause.column, r⟩

end Condition

/-- A way to the rows: the index that it takes, the terms that restrict its entries, how many of them
are equations with one or more values, and the estimates. -/
structure Route where
  index : Option Index := none
  terms : List Term := []
  equations : Nat := 0
  rows : Int
  cost : Int
  deriving Repr, DecidableEq

namespace Route
open Estimate

def answered (terms : List Term) : List Nat :=
  terms.filterMap fun t =>
    match t.restriction with
    | .start _ false => none
    | _ => some t.place

def rowsLeft (condition : Condition) (terms : List Term) (rows : Int) : Int :=
  let others := condition.zipIdx.filter fun (_, place) => !(answered terms).contains place
  min (rows - others.length)
    (tableRows - if others.any (·.1.1.isEquation) then 20 else 0)

def rowsBetween (rows : Int) (bounds : Nat) : Int :=
  let reduced := rows - 20 * bounds - (if bounds = 2 then 20 else 0)
  min (max reduced 10) (rows - bounds)

def search (condition : Condition) (index : Index) (terms : List Term) (equations : Nat) (rows : Int)
    (times : Int := 0) : Route :=
  let cost := add (add (Estimate.search tableRows) (rows + index.entryCost)) (rows + 16)
  { index := some index, terms, equations
    rows := rowsLeft condition terms (rows + times)
    cost := cost + times }

def searchesFrom (condition : Condition) (index : Index) (terms : List Term) (first : Term) :
    List Route :=
  let own (bounds : List Term) (rows : Int) : Route := search condition index bounds 0 rows
  let given := index.rowsGiven 1
  match first.restriction with
  | .equal =>
    let second := terms.filterMap fun t =>
      if index.columns.drop 1 = [t.column] then
        match t.restriction with
        | .isIn count =>
          some (search condition index [first, t] 2 (index.rowsGiven 2) (ofCount count))
        | .start _ _ => some (search condition index [first, t] 1 (rowsBetween given 2))
        | _ => none
      else none
    search condition index [first] 1 given :: second
  | .isIn count => [search condition index [first] 1 given (ofCount count)]
  | .lower =>
    own [first] (rowsBetween tableRows 1) ::
      (terms.filter fun t => t.column = first.column && t.restriction = .upper).map fun t =>
        own [first, t] (rowsBetween tableRows 2)
  | .upper => [own [first] (rowsBetween tableRows 1)]
  | .start _ _ => [own [first] (rowsBetween tableRows 2)]

def searches (condition : Condition) (index : Index) : List Route :=
  let terms := condition.terms
  (terms.filter fun t => index.columns.take 1 = [t.column]).flatMap
    (searchesFrom condition index terms)

def saving (condition : Condition) (index : Index) : Int :=
  let covers (c : Clause × List SqlValue) : Bool := index.columns.contains c.1.column
  let first := (condition.takeWhile covers).foldl
    (fun sum c => sum + if c.1.isEquation then 20 else 1) 0
  if condition.all covers then
    first + condition.foldl (fun sum c => sum + (c.1.derivedCount c.2 : Int)) 0
  else first

def wholeTable (condition : Condition) : Route :=
  { rows := rowsLeft condition [] tableRows, cost := tableRows + 16 }

def wholeIndex (condition : Condition) (index : Index) : Route :=
  { index := some index
    rows := rowsLeft condition [] tableRows
    cost := add (tableRows + index.entryCost) (tableRows + 16 - saving condition index) }

/-- The routes in the order in which they are considered. Every order that is asked for is that of an
index which has the agreement id. -/
def all (condition : Condition) (migrated : Bool) : List Route :=
  wholeTable condition ::
    (Index.all migrated).flatMap fun index =>
      (if index.columns.contains .agreementId then [wholeIndex condition index] else []) ++
        searches condition index

def inOrder (single : List Column) : List Column → List Column → Nat
  | [], _ => 0
  | column :: order, turns =>
    if single.contains column then 1 + inOrder single order turns
    else
      match turns.dropWhile single.contains with
      | next :: turns => if next = column then 1 + inOrder single order turns else 0
      | [] => 0

def orderedColumns (condition : Condition) (route : Route) (order : List Column) : Nat :=
  inOrder ((condition.filter (·.1.isEquation)).map (·.1.column)) order
    ((route.index.map Index.columns).getD [])

def sortingCost (rows : Int) (columns ordered : Nat) : Int :=
  rows + 10 + Estimate.search rows +
    (if ordered = 0 then 0 else ofCount ((columns - ordered) * 100 / columns) - 66)

def cheapest (cost : Route → Int × Int) (best : Route) (routes : List Route) : Route :=
  let key (r : Route) : List Int := [(cost r).1, r.rows, (cost r).2]
  routes.foldl (fun best r => if key r < key best then r else best) best

def cheapestUnordered (condition : Condition) (migrated : Bool) : Route :=
  cheapest (fun r => (add r.cost 0, 0)) (wholeTable condition) (all condition migrated)

def costInOrder (condition : Condition) (order : List Column) (rows : Int) (route : Route) :
    Int × Int :=
  let cost := add route.cost 0
  let ordered := orderedColumns condition route order
  if ordered < order.length then
    (add cost (sortingCost rows order.length ordered) + 3, cost)
  else (cost, cost - 2)

/-- The route that is taken. One row at most has a given agreement id; and where equations lead to
the rows, nothing is read as a whole for the sake of the order. -/
def choose (condition : Condition) (order : List Column) (migrated : Bool) : Route :=
  match condition.terms.find? fun t => t.column = .agreementId && t.restriction = .equal with
  | some t => search condition .agreementId [t] 1 0
  | none =>
    let first := cheapestUnordered condition migrated
    let routes := all condition migrated
    let considered := if 0 < first.equations then routes.filter (!·.terms.isEmpty) else routes
    let rows := if first.rows < 0 then 1 else first.rows + 1
    match considered with
    | [] => first
    | r :: rest => cheapest (costInOrder condition order rows) r rest

end Route

end RetirementLedger

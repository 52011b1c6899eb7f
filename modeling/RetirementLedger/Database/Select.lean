import RetirementLedger.Database.Schema
import RetirementLedger.Query.Selection

namespace RetirementLedger

inductive Column where
  | agreementId
  | reason
  | retiredAt
  | retiredBy
  deriving Repr, DecidableEq

inductive SqlValue where
  | text (s : String)
  | integer (n : Int)
  deriving Repr, DecidableEq

inductive Clause where
  | equal (column : Column)
  | like (column : Column)
  | isIn (column : Column) (count : Nat)
  | greater (column : Column)
  | less (column : Column)
  | between (column : Column)
  deriving Repr, DecidableEq

structure Select where
  clauses : List Clause
  orderBy : List (Column × SortOrder)
  values : List SqlValue
  deriving Repr, DecidableEq

namespace Column

def name : Column → String
  | .agreementId => "agreement_id"
  | .reason => "reason"
  | .retiredAt => "retired_at_ms"
  | .retiredBy => "retired_by"

def ofTextField : TextField → Column
  | .agreementId => .agreementId
  | .reason => .reason
  | .retiredBy => .retiredBy

def of (column : Column) (entry : String × Row) : SqlValue :=
  match column with
  | .agreementId => .text entry.1
  | .reason => .text entry.2.reason
  | .retiredAt => .integer entry.2.retiredAtMillis
  | .retiredBy => .text entry.2.retiredBy

end Column

namespace SqlValue

def le : SqlValue → SqlValue → Bool
  | .integer m, .integer n => m ≤ n
  | .integer _, .text _ => true
  | .text _, .integer _ => false
  | .text s, .text t => s ≤ t

def less (v w : SqlValue) : Bool := le v w && v != w

def untilNul (s : String) : String := String.ofList (s.toList.takeWhile (· != '\x00'))

def isNoncharacter (c : Char) : Bool := c.toNat == 0xFFFE || c.toNat == 0xFFFF

def seenByLike (s : String) : String :=
  (untilNul s).map fun c => if isNoncharacter c then '\uFFFD' else c

def isLike : SqlValue → SqlValue → Bool
  | .text s, .text pattern => Like.isMatch (seenByLike pattern) (seenByLike s)
  | _, _ => false

end SqlValue

namespace Clause

def arity : Clause → Nat
  | .equal _ | .like _ | .greater _ | .less _ => 1
  | .isIn _ count => count
  | .between _ => 2

def column : Clause → Column
  | .equal c | .like c | .isIn c _ | .greater c | .less c | .between c => c

def holds (clause : Clause) (values : List SqlValue) (entry : String × Row) : Bool :=
  let v := clause.column.of entry
  match clause, values with
  | .equal _, [w] => v == w
  | .like _, [w] => v.isLike w
  | .isIn _ _, ws => ws.contains v
  | .greater _, [w] => w.less v
  | .less _, [w] => v.less w
  | .between _, [low, high] => low.le v && v.le high
  | _, _ => false

def sql (clause : Clause) : String :=
  let name := clause.column.name
  match clause with
  | .equal _ => name ++ " = ?"
  | .like _ => name ++ " LIKE ? ESCAPE '\\'"
  | .isIn _ count => name ++ " IN (" ++ ", ".intercalate (List.replicate count "?") ++ ")"
  | .greater _ => name ++ " > ?"
  | .less _ => name ++ " < ?"
  | .between _ => name ++ " BETWEEN ? AND ?"

def ofPredicate : Predicate → Clause × List SqlValue
  | .textEq field value => (.equal (.ofTextField field), [.text value])
  | .textLike field pattern => (.like (.ofTextField field), [.text pattern])
  | .textIn field values => (.isIn (.ofTextField field) values.length, values.map .text)
  | .atEq millis => (.equal .retiredAt, [.integer millis])
  | .atGt millis => (.greater .retiredAt, [.integer millis])
  | .atLt millis => (.less .retiredAt, [.integer millis])
  | .atBetween first last => (.between .retiredAt, [.integer first, .integer last])

def maxPatternSize : Nat := 50000

def isTooComplex : Clause → List SqlValue → Bool
  | .like _, [.text pattern] => maxPatternSize < pattern.utf8ByteSize
  | _, _ => false

/-- How deep the condition of a clause is. An IN with one value is an equation with a sign before the
value. -/
def depth : Clause → Nat
  | .isIn _ 1 => 3
  | _ => 2

end Clause

namespace Select

def ofSelection (s : Selection) : Select :=
  let parts := s.predicates.map Clause.ofPredicate
  { clauses := parts.map (·.1)
    orderBy :=
      match s.sortField with
      | .retiredAt => [(.retiredAt, s.sortOrder), (.agreementId, s.sortOrder)]
      | .agreementId => [(.agreementId, s.sortOrder)]
    values := parts.flatMap (·.2) ++ [.integer s.limit.toNat, .integer s.offset.toNat] }

def bind : List Clause → List SqlValue → List (Clause × List SqlValue) × List SqlValue
  | [], values => ([], values)
  | clause :: rest, values =>
    let (bound, left) := bind rest (values.drop clause.arity)
    ((clause, values.take clause.arity) :: bound, left)

def precedes : List (Column × SortOrder) → String × Row → String × Row → Bool
  | [], _, _ => true
  | (column, order) :: rest, a, b =>
    let v := column.of a
    let w := column.of b
    if v = w then precedes rest a b
    else match order with
      | .ascending => v.le w
      | .descending => w.le v

def columnList : String := "agreement_id, reason, retired_at_ms, retired_by"

def sql (statement : Select) : String :=
  let direction : SortOrder → String
    | .ascending => "ASC"
    | .descending => "DESC"
  "SELECT " ++ columnList ++ " FROM agreement_retirements" ++
    (if statement.clauses.isEmpty then ""
      else " WHERE " ++ " AND ".intercalate (statement.clauses.map Clause.sql)) ++
    " ORDER BY " ++
    ", ".intercalate (statement.orderBy.map fun (c, o) => c.name ++ " " ++ direction o) ++
    " LIMIT ? OFFSET ?"

def maxDepth : Nat := 1000

def tooDeep : Failure :=
  .persistence ("Expression tree is too large (maximum depth " ++ toString maxDepth ++ ")")

def maxPlaceholders : Nat := 32766

def placeholderOffset (sql : String) (number : Nat) : Nat :=
  let places := (sql.toList.zipIdx.filter fun (c, _) => c == '?').map (·.2)
  (places[number]?).getD 0

def tooManyPlaceholders (statement : Select) : Failure :=
  .persistence ("too many SQL variables in " ++ statement.sql ++ " at offset " ++
    toString (placeholderOffset statement.sql maxPlaceholders))

/-- Reads the clauses that follow a condition of some depth with so many placeholders. Each AND adds a
level above the clauses before it. -/
def checkClauses (statement : Select) : Nat → Nat → List Clause → Except Failure Unit
  | _, placeholders, [] =>
    if maxPlaceholders < placeholders + 2 then .error statement.tooManyPlaceholders else .ok ()
  | depth, placeholders, clause :: rest =>
    let placeholders := placeholders + clause.arity
    let depth := if depth = 0 then clause.depth else 1 + max depth clause.depth
    if maxPlaceholders < placeholders then .error statement.tooManyPlaceholders
    else if maxDepth < depth then .error tooDeep
    else statement.checkClauses depth placeholders rest

/-- Refuses a statement whose condition is too deep or that has too many placeholders, whichever shows
first when it is read. -/
def checkSize (statement : Select) : Except Failure Unit :=
  statement.checkClauses 0 0 statement.clauses

end Select

end RetirementLedger

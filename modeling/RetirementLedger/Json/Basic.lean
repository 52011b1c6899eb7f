/-!
JSON values. A string whose text denotes no sequence of characters (an unpaired surrogate escape,
or octets that are not UTF-8) is well formed as JSON and is kept as `none`; who needs its text
has to refuse it. A numeral with a fraction or an exponent, and `-0`, is a `real`; every other
numeral is an `integer`.
-/
namespace RetirementLedger

/-- A JSON value with its members in written order. The `real` with digits `d` and exponent `e` is
`d * 10 ^ e` under its sign. -/
inductive Json where
  | null
  | bool (b : Bool)
  | integer (n : Int)
  | real (negative : Bool) (digits : Nat) (exponent : Int)
  | string (s : Option String)
  | array (items : List Json)
  | object (members : List (Option String × Json))
  deriving Repr, Inhabited, BEq

namespace Json

def text (s : String) : Json := .string (some s)

def nat (n : Nat) : Json := .integer n

def ofFields (fields : List (String × Json)) : Json :=
  .object (fields.map fun (name, value) => (some name, value))

def ofOption {α : Type} (f : α → Json) : Option α → Json
  | none => .null
  | some a => f a

def member? (j : Json) (name : String) : Option Json :=
  match j with
  | .object members => (members.find? fun m => m.1 == some name).map (·.2)
  | _ => none

def text? : Json → Option String
  | .string s => s
  | _ => none

def bool? : Json → Option Bool
  | .bool b => some b
  | _ => none

def integer? : Json → Option Int
  | .integer n => some n
  | _ => none

def array? : Json → Option (List Json)
  | .array items => some items
  | _ => none

def within? (low high : Int) : Json → Option Int
  | .integer n => if low ≤ n ∧ n ≤ high then some n else none
  | _ => none

def word? (bits : Nat) (j : Json) : Option Nat :=
  (j.within? 0 (Nat.pow 2 bits - 1 : Nat)).map Int.toNat

def signed64? (j : Json) : Option Int := j.within? (-0x8000000000000000) 0x7fffffffffffffff

def list? {α : Type} (f : Json → Option α) (j : Json) : Option (List α) := do
  (← j.array?).mapM f

def nullable? {α : Type} (f : Json → Option α) : Json → Option (Option α)
  | .null => some none
  | j => (f j).map some

end Json

end RetirementLedger

import RetirementLedger.Json.Basic
import RetirementLedger.Json.Magnitude

/-!
Structures and tagged choices as JSON.

A structure is an object, whose unknown members are ignored and whose known members may each
appear once under any of their names, or an array of the fields in order. A `Slot` says how a field
was given, because a field left out of an object and one cut off the end of an array may have
different defaults.

A tagged choice carries its tag as one more member, so it has to be read as a whole before its
fields are known. That makes it stricter: every name and string in it must denote text, every
number must be finite as a 64-bit float, and it must stay within the depth limit.
-/
namespace RetirementLedger.Json

inductive Slot where
  | given (value : Json)
  | omitted
  | cut
  deriving Repr, Inhabited

namespace Slot

variable {α : Type}

def required (f : Json → Option α) : Slot → Option α
  | .given v => f v
  | _ => none

def withDefault (d : α) (f : Json → Option α) : Slot → Option α
  | .given v => f v
  | _ => some d

/-- A field that may be `null`, or left out of an object, but not of an array. -/
def nullable (f : Json → Option α) : Slot → Option (Option α)
  | .given v => v.nullable? f
  | .omitted => some none
  | .cut => none

end Slot

def placeOf (name : String) (fields : List (List String)) : Option Nat :=
  fields.findIdx? (·.contains name)

def memberSlots (fields : List (List String)) :
    List Slot → List (Option String × Json) → Option (List Slot)
  | slots, [] => some slots
  | _, (none, _) :: _ => none
  | slots, (some name, v) :: rest =>
    match placeOf name fields with
    | none => memberSlots fields slots rest
    | some place =>
      match slots[place]? with
      | some .omitted => memberSlots fields (slots.set place (.given v)) rest
      | _ => none

/-- The slots of an array's items: the first items in order, the rest cut off. -/
def itemSlots (fields : List (List String)) (items : List Json) : Option (List Slot) :=
  if items.length ≤ fields.length then
    some (items.map .given ++ List.replicate (fields.length - items.length) .cut)
  else none

def slots? (fields : List (List String)) : Json → Option (List Slot)
  | .object members => memberSlots fields (fields.map fun _ => .omitted) members
  | .array items => itemSlots fields items
  | _ => none

/-- The name of a constant that is written as a string, or as an object with that one name and
`null`. -/
def constant? : Json → Option String
  | .string s => s
  | .object [(some name, .null)] => some name
  | _ => none

def depthLimit : Nat := 127

mutual

/-- Whether a value may be part of a tagged choice when it has `depth` containers around it. -/
def isHeld (depth : Nat) : Json → Bool
  | .null | .bool _ => true
  | .integer n => isFinite n.natAbs 0
  | .real _ digits exponent => isFinite digits exponent
  | .string s => s.isSome
  | .array items => depth < depthLimit && itemsHeld (depth + 1) items
  | .object members => depth < depthLimit && membersHeld (depth + 1) members

def itemsHeld (depth : Nat) : List Json → Bool
  | [] => true
  | v :: rest => isHeld depth v && itemsHeld depth rest

def membersHeld (depth : Nat) : List (Option String × Json) → Bool
  | [] => true
  | (name, v) :: rest => name.isSome && isHeld depth v && membersHeld depth rest

end

/-- A constant inside a tagged choice, where an empty object serves as well as `null`. -/
def heldConstant? : Json → Option String
  | .object [(some name, .object [])] => some name
  | j => constant? j

def takeTag (tag : String) (members : List (Option String × Json)) :
    Option (Json × List (Option String × Json)) :=
  match members.filter (·.1 == some tag) with
  | [(_, v)] => some (v, members.filter (·.1 != some tag))
  | _ => none

/-- The tag of a choice and the value that holds its fields. The tag comes first in an array and
anywhere in an object. -/
def tagged? (tag : String) : Json → Option (Json × Json)
  | .object members => (takeTag tag members).map fun (v, rest) => (v, .object rest)
  | .array (v :: rest) => some (v, .array rest)
  | _ => none

/-- Inside another tagged choice an alternative may also be given by its place. -/
def heldTagName? (names : List String) : Json → Option String
  | .integer n => if 0 ≤ n then names[n.toNat]? else none
  | j => j.text?

/-- A choice without fields ignores other members but allows no further items. -/
def hasNoItems : Json → Bool
  | .array items => items.isEmpty
  | _ => true

end RetirementLedger.Json

import RetirementLedger.Query.Spec
import RetirementLedger.Text.Percent
import RetirementLedger.Text.Split

namespace RetirementLedger.Http.Form

def decodePart (cs : List Char) : String :=
  let spaced := cs.map fun c => if c == '+' then ' ' else c
  Text.Utf8.toTextLossy (Text.Percent.decode (Text.Utf8.encode (String.ofList spaced)))

def pairOf (part : List Char) : String × String :=
  (decodePart (part.takeWhile (· != '=')), decodePart ((part.dropWhile (· != '=')).drop 1))

def parse (query : List Char) : List (String × String) :=
  ((Text.splitAt '&' query).filter fun part => !part.isEmpty).map pairOf

def encodeOctet (b : UInt8) : List Char :=
  if b = 0x20 then ['+'] else Text.Percent.encodeOctet b

def encodePart (s : String) : List Char := (Text.Utf8.encode s).flatMap encodeOctet

def write (pairs : List (String × String)) : List Char :=
  List.intercalate ['&'] (pairs.map fun (name, value) => encodePart name ++ '=' :: encodePart value)

def values? (names : List String) (pairs : List (String × String)) :
    Option (List (Option String)) :=
  names.mapM fun name =>
    match pairs.filter (·.1 == name) with
    | [] => some none
    | [(_, value)] => some (some value)
    | _ => none

def read? {α : Type} (f : String → Option α) : Option String → Option (Option α)
  | none => some none
  | some s => (f s).map some

def word32? (s : String) : Option UInt32 := do
  let n ← Text.unsigned? s.toList
  if n < 0x100000000 then some (UInt32.ofNat n) else none

def names : List String := RetirementQuery.fields.flatten

def toQuery? (query : List Char) : Option RetirementQuery := do
  let [id, idPrefix, reason, reasonPrefix, after, before, offset, limit, order] ←
    values? names (parse query) | none
  return {
    agreementId := id
    agreementIdPrefix := idPrefix
    reason := reason
    reasonPrefix := reasonPrefix
    retiredAfter := ← read? Instant.ofRfc3339? after
    retiredBefore := ← read? Instant.ofRfc3339? before
    offset := ← read? word32? offset
    limit := ← read? word32? limit
    order := ← read? SortOrder.ofName? order }

end RetirementLedger.Http.Form

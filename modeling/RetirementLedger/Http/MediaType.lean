import RetirementLedger.Http.Token
import RetirementLedger.Text.Case

namespace RetirementLedger.Http.MediaType
open Text

def isQuotedChar (c : Char) : Bool := 31 < c.toNat && c.toNat != 127

/-- Where the reading of parameters stands: before a name, inside one, and, with whether anything of
it has been read, inside a plain or a quoted value; last, after a quoted value. -/
inductive Place where
  | start
  | name
  | value (begun : Bool)
  | quoted (begun : Bool)
  | after
  deriving Repr, DecidableEq

def parametersOk : Place → List Char → Bool
  | .start, [] | .value _, [] | .after, [] => true
  | .name, [] | .quoted _, [] => false
  | .start, c :: rest =>
    if c == ' ' then parametersOk .start rest else isTokenChar c && parametersOk .name rest
  | .name, c :: rest =>
    if c == '=' then parametersOk (.value false) rest
    else isTokenChar c && parametersOk .name rest
  | .value begun, c :: rest =>
    if c == '"' && !begun then parametersOk (.quoted false) rest
    else if c == ';' && begun then parametersOk .start rest
    else isTokenChar c && parametersOk (.value true) rest
  | .quoted begun, c :: rest =>
    if c == '"' && begun then parametersOk .after rest
    else isQuotedChar c && parametersOk (.quoted true) rest
  | .after, c :: rest =>
    if c == ';' then parametersOk .start rest else c == ' ' && parametersOk .after rest

def splitSuffix (cs : List Char) : List Char × Option (List Char) :=
  let suffix := (cs.reverse.takeWhile (· != '+')).reverse
  let front := cs.take (cs.length - suffix.length)
  if front.length ≤ 1 then (cs, none) else (front.dropLast, some suffix)

def parse? (cs : List Char) : Option (List Char × List Char × Option (List Char)) :=
  let type := cs.takeWhile isTokenChar
  match cs.dropWhile isTokenChar with
  | '/' :: rest =>
    let full := rest.takeWhile isTokenChar
    let tail := rest.dropWhile isTokenChar
    let tailOk :=
      match tail with
      | [] => true
      | c :: parameters => c == ';' && parametersOk .start parameters
    if type.isEmpty || full.isEmpty || !tailOk then none
    else
      let (subtype, suffix) := splitSuffix full
      some (type.map lowerAscii, subtype.map lowerAscii, suffix.map (·.map lowerAscii))
  | _ => none

def json : List Char := "json".toList

def isJson (cs : List Char) : Bool :=
  match parse? cs with
  | some (type, subtype, suffix) =>
    type == "application".toList && (subtype == json || suffix == some json)
  | none => false

end RetirementLedger.Http.MediaType

import RetirementLedger.Json.Basic
import RetirementLedger.Json.Token
import RetirementLedger.Text.Utf8

namespace RetirementLedger.Json

/-- A container under way with its finished elements, last first. An object also holds the name
whose value comes next. -/
inductive Frame where
  | items (done : List Json)
  | members (done : List (Option String × Json)) (name : Option String)
  deriving Repr, Inhabited

inductive Wanted where
  | value
  | valueOrClose
  | name
  | nameOrClose
  | colon
  | separator
  deriving Repr, DecidableEq

inductive Reading where
  | finished (v : Json)
  | underway (frames : List Frame) (wanted : Wanted)
  deriving Repr, Inhabited

def Reading.deliver (v : Json) : List Frame → Reading
  | [] => .finished v
  | .items done :: outer => .underway (.items (v :: done) :: outer) .separator
  | .members done name :: outer => .underway (.members ((name, v) :: done) none :: outer) .separator

def Token.scalar? : Token → Option Json
  | .null => some .null
  | .bool b => some (.bool b)
  | .integer n => some (.integer n)
  | .real negative digits exponent => some (.real negative digits exponent)
  | .string s => some (.string s)
  | _ => none

def Reading.begin? (frames : List Frame) : Token → Option Reading
  | .openObject => some (.underway (.members [] none :: frames) .nameOrClose)
  | .openArray => some (.underway (.items [] :: frames) .valueOrClose)
  | token => token.scalar?.map (Reading.deliver · frames)

def Reading.close? : List Frame → Token → Option Reading
  | .items done :: outer, .closeArray => some (.deliver (.array done.reverse) outer)
  | .members done _ :: outer, .closeObject => some (.deliver (.object done.reverse) outer)
  | _, _ => none

def Reading.name? : List Frame → Token → Option Reading
  | .members done _ :: outer, .string s => some (.underway (.members done s :: outer) .colon)
  | _, _ => none

def Reading.comma? : List Frame → Option Reading
  | .items done :: outer => some (.underway (.items done :: outer) .value)
  | .members done name :: outer => some (.underway (.members done name :: outer) .name)
  | [] => none

def Reading.step? (frames : List Frame) (wanted : Wanted) (token : Token) : Option Reading :=
  match wanted with
  | .value => Reading.begin? frames token
  | .valueOrClose =>
    if token = .closeArray then Reading.close? frames token else Reading.begin? frames token
  | .name => Reading.name? frames token
  | .nameOrClose =>
    if token = .closeObject then Reading.close? frames token else Reading.name? frames token
  | .colon => if token = .colon then some (.underway frames .value) else none
  | .separator => if token = .comma then Reading.comma? frames else Reading.close? frames token

def readFrom (frames : List Frame) (wanted : Wanted) : List Token → Option (Json × List Token)
  | [] => none
  | token :: rest =>
    match Reading.step? frames wanted token with
    | none => none
    | some (.finished v) => some (v, rest)
    | some (.underway frames wanted) => readFrom frames wanted rest

def readValue (tokens : List Token) : Option (Json × List Token) := readFrom [] .value tokens

def ofSymbols? (symbols : List (Option Char)) : Option Json :=
  match readValue (Token.scan symbols) with
  | some (v, []) => some v
  | _ => none

def parse? (s : String) : Option Json := ofSymbols? (s.toList.map some)

def parseFirst? (bytes : List UInt8) : Option Json :=
  (readValue (Token.scan (Text.Utf8.decode bytes))).map (·.1)

end RetirementLedger.Json

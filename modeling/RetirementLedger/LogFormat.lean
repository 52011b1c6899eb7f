import RetirementLedger.Json.Fields
import RetirementLedger.Text.Blank
import RetirementLedger.Text.Case

namespace RetirementLedger

inductive LogFormat where
  | pretty
  | json
  deriving Repr, DecidableEq, Inhabited

namespace LogFormat

def name : LogFormat → String
  | .pretty => "pretty"
  | .json => "json"

def ofName? : String → Option LogFormat
  | "pretty" => some .pretty
  | "json" => some .json
  | _ => none

def parse (raw : String) : Except String LogFormat :=
  let lowered := String.ofList ((Text.trimChars raw.toList).map Text.lowerAscii)
  match ofName? lowered with
  | some format => .ok format
  | none => .error ("invalid log format: " ++ lowered ++ " (expected pretty or json)")

def toJson (f : LogFormat) : Json := .text f.name

def ofJson? (j : Json) : Option LogFormat := do ofName? (← j.constant?)

end LogFormat

end RetirementLedger

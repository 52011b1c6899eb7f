import RetirementLedger.Like
import RetirementLedger.Retirement

namespace RetirementLedger

inductive TextField where
  | agreementId
  | reason
  | retiredBy
  deriving Repr, DecidableEq, Inhabited

namespace TextField

def name : TextField → String
  | .agreementId => "agreement_id"
  | .reason => "reason"
  | .retiredBy => "retired_by"

def of (field : TextField) (r : Retirement) : String :=
  match field with
  | .agreementId => r.agreementId
  | .reason => r.reason
  | .retiredBy => r.retiredBy

end TextField

inductive Predicate where
  | textEq (field : TextField) (value : String)
  | textLike (field : TextField) (pattern : String)
  | textIn (field : TextField) (values : List String)
  | atEq (millis : Int)
  | atGt (millis : Int)
  | atLt (millis : Int)
  | atBetween (first last : Int)
  deriving Repr, DecidableEq, Inhabited

namespace Predicate

def holds (p : Predicate) (r : Retirement) : Bool :=
  match p with
  | .textEq field value => field.of r == value
  | .textLike field pattern => Like.isMatch pattern (field.of r)
  | .textIn field values => values.contains (field.of r)
  | .atEq millis => r.retiredAtMillis == millis
  | .atGt millis => millis < r.retiredAtMillis
  | .atLt millis => r.retiredAtMillis < millis
  | .atBetween first last => first ≤ r.retiredAtMillis && r.retiredAtMillis ≤ last

end Predicate

end RetirementLedger

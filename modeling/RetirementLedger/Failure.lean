namespace RetirementLedger

inductive Failure where
  | invalidArgument (detail : String)
  | transientStore (detail : String)
  | persistence (detail : String)
  | dependencyUnavailable (detail : String)
  | notFound (detail : String)
  deriving Repr, DecidableEq, Inhabited

namespace Failure

def message : Failure → String
  | .invalidArgument detail => "invalid argument: " ++ detail
  | .transientStore detail => "transient store failure: " ++ detail
  | .persistence detail => "persistence error: " ++ detail
  | .dependencyUnavailable detail => "external dependency unavailable: " ++ detail
  | .notFound detail => "not found: " ++ detail

def isTransient : Failure → Bool
  | .transientStore _ | .dependencyUnavailable _ => true
  | _ => false

end Failure

end RetirementLedger

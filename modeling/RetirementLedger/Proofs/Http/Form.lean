import RetirementLedger.Http.Form
import RetirementLedger.Proofs.Text.Percent

namespace RetirementLedger

namespace Text

end Text

namespace Http.Form

def pairsOf (fields : List (String × Option String)) : List (String × String) :=
  fields.flatMap fun field => (field.2.map (field.1, ·)).toList

end Http.Form

end RetirementLedger

import Mathlib.Data.List.TakeWhile
import RetirementLedger.Http.Target
import RetirementLedger.Proofs.Text.Percent

namespace RetirementLedger

namespace Text.Percent

end Text.Percent

namespace Http.Target
open Text

variable {path query : List Char}

end Http.Target

end RetirementLedger

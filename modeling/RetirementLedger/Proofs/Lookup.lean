import RetirementLedger.Proofs.Creation
import RetirementLedger.Proofs.Http.Target

namespace RetirementLedger

namespace Text.Percent

end Text.Percent

namespace Http

open Text

end Http

namespace System

variable {s : System}

end System

end RetirementLedger

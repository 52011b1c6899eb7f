import RetirementLedger.Proofs.System.Basic

namespace RetirementLedger

namespace Traffic

variable {t : Traffic}

end Traffic

namespace System

end System

end RetirementLedger

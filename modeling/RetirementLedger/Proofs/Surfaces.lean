import RetirementLedger.Proofs.Creation
import RetirementLedger.Proofs.Http.Target
import RetirementLedger.Proofs.Json.Reader
import RetirementLedger.Proofs.Query.Outcome
import RetirementLedger.Proofs.Query.Spelling

namespace RetirementLedger

namespace Http

namespace Form

end Form

def listPath : List Char := "/v1/retirements".toList

def listing (q : RetirementQuery) : Request where
  method := "GET"
  target := ⟨listPath, Form.write q.pairs⟩

variable {server : Server} {r : Request}

end Http

namespace System

variable {s : System}

end System

end RetirementLedger

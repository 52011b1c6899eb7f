import RetirementLedger.Proofs.System.Basic

namespace RetirementLedger

namespace System

theorem Reachable.keeps {s : System} (reachable : s.Reachable) (acts : List Act) {id : String}
    {r : Retirement} (held : s.store.record? id = some r) :
    (s.run acts).store.record? id = some r :=
  Traffic.moves_keep (run_moves reachable.recorded.sound acts) held

end System

end RetirementLedger

import RetirementLedger.Proofs.Lookup
import RetirementLedger.Proofs.System.Watch
import RetirementLedger.Proofs.Wire.Choices

namespace RetirementLedger

namespace Service

end Service

namespace Http

open Text

end Http

namespace System

variable {s t : System}

/-- A request that arrived in the state `s` has an answer by the state `t`, whatever others have done in
between. -/
def Answered (s : System) (q : Http.Request) (response : Http.Response) (t : System) : Prop :=
  ∃ acts reply, t = (s.step (.traffic (.request q))).run acts ∧
    t.calls[s.calls.length]? = some (.done reply) ∧ response = Http.receiptResponse reply

theorem Answered.held (reachable : s.Reachable) {q : Http.Request} {response : Http.Response}
    {id : String} (answered : s.Answered q response t) (about : q.IsAbout id)
    (success : response.status = 200 ∨ response.status = 201) :
    ∃ stored, t.store.record? id = some stored := by
  obtain ⟨acts, reply, rfl, done, rfl⟩ := answered
  obtain ⟨body, asked, rfl⟩ := about
  have arrived : (s.step (.traffic (.request q))).Reachable := reachable.run [.traffic (.request q)]
  have begun : (s.step (.traffic (.request q))).calls =
      s.calls ++ [.asked body.agreementId body.reason q.actor] := by
    simp only [step, Traffic.step, asked, Traffic.ask]
  have concerned : (s.step (.traffic (.request q))).toTraffic.Concerned s.calls.length
      body.agreementId :=
    ⟨.asked body.agreementId body.reason q.actor,
      by rw [begun, List.getElem?_concat_length], rfl⟩
  -- Whatever becomes of the call, it is about the agreement that the request named.
  obtain ⟨call, here, about⟩ :=
    concerned.moves arrived.recorded.sound (run_moves arrived.recorded.sound acts)
  cases done.symm.trans here
  cases unanswered : reply.receipt? with
  | none =>
    have failure := Http.status_receiptResponse unanswered
    omega
  | some receipt =>
    cases Reply.receipt?_eq_some.mp unanswered
    have holds := (arrived.run acts).recorded.calls _ (List.mem_of_getElem? done) receipt rfl
    exact ⟨receipt.record, about ▸ holds⟩

end System

end RetirementLedger

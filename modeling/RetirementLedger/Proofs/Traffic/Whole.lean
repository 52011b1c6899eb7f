import RetirementLedger.Proofs.RetireCall
import RetirementLedger.Proofs.Traffic.Moves

namespace RetirementLedger

namespace RetireCall

def history : Nat → RetireCall → Service → List Event
  | 0, _, _ => []
  | n + 1, call, s => call.events s ++ history n (call.step s).1 (call.step s).2

end RetireCall

namespace Http

theorem asked?_eq_none {r : Request} (other : r.method ≠ "POST") : asked? r = none := by
  unfold asked?
  split
  · next post => exact absurd post other
  · rfl

theorem handle_service (server : Server) (r : Request) :
    (handle server r).2 =
      match asked? r with
      | none => server.service
      | some body => (server.service.retire body.agreementId body.reason r.actor).2 := by
  by_cases post : r.method = "POST"
  · unfold handle asked?
    cases Resource.ofPath? r.target.path with
    | none => rfl
    | some resource =>
        cases resource with
        | retirements =>
            simp only [post, post?, retire, Option.getD_some]
            cases decodeBody r RetireRequest.ofJson? <;> rfl
        | _ => simp [post, post?]
  · rw [asked?_eq_none post]
    unfold handle
    cases Resource.ofPath? r.target.path with
    | none => rfl
    | some resource =>
        dsimp only
        split
        · cases get? server r resource <;> rfl
        · cases get? server r resource <;> rfl
        · exact absurd ‹_› post
        · rfl

end Http

namespace Traffic

variable (t : Traffic)

def Act.wholeCall (agreementId reason actor : String) (place : Nat) : List Act :=
  .ask agreementId reason actor :: List.replicate RetireCall.stepCount (.advance place)

theorem run_advance (n : Nat) (call : RetireCall) (s : Service) (calls : List RetireCall)
    (log : List Event) :
    run ⟨s, calls ++ [call], log⟩ (List.replicate n (.advance calls.length)) =
      ⟨(call.steps n s).2, calls ++ [(call.steps n s).1], log ++ call.history n s⟩ := by
  induction n generalizing call s log with
  | zero => simp [run, RetireCall.steps, RetireCall.history]
  | succ n ih =>
      have first : step ⟨s, calls ++ [call], log⟩ (.advance calls.length) =
          ⟨(call.step s).2, calls ++ [(call.step s).1], log ++ call.events s⟩ := by
        simp [step, advance]
      rw [List.replicate_succ]
      change run (step _ _) _ = _
      rw [first, ih, List.append_assoc]
      rfl

theorem run_wholeCall (agreementId reason actor : String) :
    t.run (Act.wholeCall agreementId reason actor t.calls.length) =
      { service := (t.service.retire agreementId reason actor).2
        calls := t.calls ++ [.done (t.service.retire agreementId reason actor).1]
        log := t.log ++
          (RetireCall.asked agreementId reason actor).history RetireCall.stepCount t.service } := by
  change run ⟨t.service, t.calls ++ [.asked agreementId reason actor], t.log⟩ _ = _
  rw [run_advance, RetireCall.steps_stepCount]
  rfl

theorem run_request_of_asked? {r : Http.Request} {body : RetireRequest}
    (asked : Http.asked? r = some body) :
    t.run (.request r :: List.replicate RetireCall.stepCount (.advance t.calls.length)) =
      t.run (Act.wholeCall body.agreementId body.reason r.actor t.calls.length) := by
  have begun : t.step (.request r) = t.step (.ask body.agreementId body.reason r.actor) := by
    simp only [step, asked]
  change run (t.step _) _ = run (t.step _) _
  rw [begun]

/-- Handling a request at once leaves the service as a run of acts does. -/
theorem run_request (monitor : Option MonitorStatus) (r : Http.Request) :
    (t.run (.request r :: List.replicate RetireCall.stepCount (.advance t.calls.length))).service =
      (Http.handle ⟨t.service, monitor⟩ r).2 := by
  rw [Http.handle_service]
  cases asked : Http.asked? r with
  | none => simp [run, step, asked, advance, RetireCall.stepCount, List.replicate]
  | some body => rw [run_request_of_asked? t asked, run_wholeCall]

end Traffic

end RetirementLedger

import RetirementLedger.Proofs.Http.Effect
import RetirementLedger.Proofs.Permanence
import RetirementLedger.Proofs.Wire

namespace RetirementLedger

namespace Service

variable {s : Service}

structure Grown (s after : Service) (stored : Retirement) : Prop where
  fresh : s.holdings.record? stored.agreementId = none
  records : ∀ id, after.holdings.record? id =
    if id = stored.agreementId then some stored else s.holdings.record? id
  attempt : if s.refuses stored.agreementId
    then after.delivered = s.delivered ∧ after.auditFailures = s.auditFailures + 1
    else after.delivered = s.delivered ++ [.ofRetirement stored] ∧
      after.auditFailures = s.auditFailures
  clock : after.clock = s.clock
  faults : after.store.faults = s.store.faults
  refuses : after.refuses = s.refuses

theorem Grown.announce {stored : Retirement} {after : Store}
    (fresh : s.holdings.record? stored.agreementId = none)
    (records : ∀ id, after.record? id =
      if id = stored.agreementId then some stored else s.holdings.record? id) :
    s.Grown ((s.withHoldings after).announce stored) stored := by
  cases refused : s.refuses stored.agreementId with
  | true =>
      have announced : (s.withHoldings after).announce stored =
          { s.withHoldings after with auditFailures := s.auditFailures + 1 } := if_pos refused
      rw [announced]
      exact ⟨fresh, records, by simp [refused, withHoldings], rfl, rfl, rfl⟩
  | false =>
      have announced : (s.withHoldings after).announce stored =
          { s.withHoldings after with delivered := s.delivered ++ [.ofRetirement stored] } :=
        if_neg (by simp [withHoldings, refused])
      rw [announced]
      exact ⟨fresh, records, by simp [refused, withHoldings], rfl, rfl, rfl⟩

/-- A whole call leaves the service as it is, or it answers that it has stored the record asked for. -/
theorem retire_outcome (sound : s.holdings.Sound) (agreementId reason actor : String) :
    (∃ reply, reply.receipt? = none ∧ s.retire agreementId reason actor = (reply, s)) ∨
      (∃ stored, s.holdings.record? agreementId = some stored ∧
        s.retire agreementId reason actor = (.ok ⟨stored, false⟩, s)) ∨
      ∃ stored after, s.Grown after stored ∧ stored.agreementId = agreementId ∧
        stored.reason = reason ∧ stored.retiredBy = actor ∧
        s.retire agreementId reason actor = (.ok ⟨stored, true⟩, after) := by
  rcases retire_cases sound agreementId reason actor with
    unanswered | ⟨receipt, after, insertion, sound', answer⟩
  · exact .inl unanswered
  · cases insertion with
    | @known earlier accepted held => exact .inr (.inl ⟨earlier, held, answer⟩)
    | @made stored after accepted free kept content kind =>
        obtain ⟨id, why, who⟩ := Store.kept_fields kept
        rw [← id] at free content
        exact .inr (.inr ⟨stored, _, .announce free content, id, why, who, answer⟩)

end Service

namespace Retirement

theorem exists_toJson? {r : Retirement} (writable : r.retiredAt.isWritable = true) :
    ∃ record, r.toJson? = some record := by
  simp [toJson?, Instant.toJson?, Instant.rfc3339?, writable]

end Retirement

namespace Http

def Response.record? (response : Response) : Option Json :=
  match response.body with
  | .json j => (j.member? "data").bind (·.member? "record")
  | _ => none

def Request.IsAbout (r : Request) (id : String) : Prop := ∃ body, asked? r = some body ∧ body.agreementId = id

end Http

namespace System

variable {s : System}

def server (s : System) (monitored : Bool) : Http.Server :=
  ⟨s.service, if monitored then some s.monitor.status else none⟩

def answer (s : System) (monitored : Bool) (r : Http.Request) : Http.Response :=
  (Http.handle (s.server monitored) r).1

def handling (s : System) (r : Http.Request) : List Act :=
  (.request r :: List.replicate RetireCall.stepCount (.advance s.calls.length)).map .traffic

def serve (s : System) (r : Http.Request) : System := s.run (s.handling r)

theorem serve_service (s : System) (monitored : Bool) (r : Http.Request) :
    (s.serve r).service = (Http.handle (s.server monitored) r).2 := by
  rw [serve, handling, run_traffic]
  exact s.toTraffic.run_request _ r

theorem Reachable.serve (reachable : s.Reachable) (r : Http.Request) : (s.serve r).Reachable :=
  reachable.run _

inductive Served (s : System) (r : Http.Request) : Http.Response → Service → Prop
  | refused {response : Http.Response} (other : response.status ≠ 201)
      (unread : r.IsRetire → response.status ≠ 200) : Served s r response s.service
  | known {body : RetireRequest} {stored : Retirement} (asked : Http.asked? r = some body)
      (held : s.store.record? body.agreementId = some stored) :
      Served s r (Http.receiptResponse (.ok ⟨stored, false⟩)) s.service
  | created {body : RetireRequest} {stored : Retirement} {after : Service}
      (asked : Http.asked? r = some body) (grown : s.service.Grown after stored)
      (about : stored.agreementId = body.agreementId) (reason : stored.reason = body.reason)
      (actor : stored.retiredBy = r.actor) :
      Served s r (Http.receiptResponse (.ok ⟨stored, true⟩)) after

theorem served (sound : s.store.Sound) (monitored : Bool) (r : Http.Request) :
    Served s r (s.answer monitored r) (s.serve r).service := by
  rw [serve_service s monitored, answer]
  cases asked : Http.asked? r with
  | none =>
      have same : (Http.handle (s.server monitored) r).2 = s.service := by
        rw [Http.handle_service, asked]
        rfl
      rw [same]
      exact .refused (Http.status_handle_ne asked) fun named => by
        simp [Http.status_of_isRetire named asked]
  | some body =>
      rw [Http.handle_of_asked? asked]
      change Served s r
        (Http.receiptResponse (s.service.retire body.agreementId body.reason r.actor).1)
        (s.service.retire body.agreementId body.reason r.actor).2
      rcases Service.retire_outcome sound body.agreementId body.reason r.actor with
        ⟨reply, failure, call⟩ | ⟨stored, held, call⟩ |
          ⟨stored, after, grown, about, reason, actor, call⟩
      · have status := Http.status_receiptResponse failure
        have other : (Http.receiptResponse reply).status ≠ 201 ∧
          (Http.receiptResponse reply).status ≠ 200 := by omega
        rw [call]
        exact .refused other.1 fun _ => other.2
      · rw [call]
        exact .known asked held
      · rw [call]
        exact .created asked grown about reason actor

theorem Served.held {r : Http.Request} {response : Http.Response} {after : Service} {id : String}
    {stored : Retirement} (served : Served s r response after)
    (held : s.store.record? id = some stored) (about : r.IsAbout id) :
    response.status ≠ 201 ∧
      (response.status = 200 → response = Http.receiptResponse (.ok ⟨stored, false⟩)) := by
  obtain ⟨body, asked, rfl⟩ := about
  cases served with
  | refused other unread =>
      exact ⟨other, fun ok => absurd ok (unread (Http.asked?_eq_some.mp asked).1)⟩
  | @known other earlier asked' held' =>
      cases asked.symm.trans asked'
      cases held.symm.trans held'
      exact ⟨by simp [Http.status_receiptResponse_ok], fun _ => rfl⟩
  | @created other new after asked' grown about reason actor =>
      cases asked.symm.trans asked'
      have fresh := grown.fresh
      rw [about] at fresh
      cases held.symm.trans fresh

theorem Served.unchanged {r : Http.Request} {response : Http.Response} {after : Service}
    (served : Served s r response after) (other : ¬(response.status = 201 ∧ r.IsRetire)) :
    after = s.service := by
  cases served with
  | refused => rfl
  | known => rfl
  | created asked => exact absurd ⟨by simp [Http.status_receiptResponse_ok],
      (Http.asked?_eq_some.mp asked).1⟩ other

theorem Served.of_ok {r : Http.Request} {response : Http.Response} {after : Service}
    (served : Served s r response after) (status : response.status = 200) (named : r.IsRetire) :
    ∃ body stored, Http.asked? r = some body ∧ s.store.record? body.agreementId = some stored ∧
      response = Http.receiptResponse (.ok ⟨stored, false⟩) := by
  cases served with
  | refused other unread => exact absurd status (unread named)
  | known asked held => exact ⟨_, _, asked, held, rfl⟩
  | created => simp [Http.status_receiptResponse_ok] at status

end System

end RetirementLedger

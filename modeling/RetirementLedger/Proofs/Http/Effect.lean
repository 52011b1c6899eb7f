import RetirementLedger.Proofs.Traffic.Whole

namespace RetirementLedger

theorem Store.kept_fields {s : Store} {r stored : Retirement} (kept : s.kept r = .ok stored) :
    stored.agreementId = r.agreementId ∧ stored.reason = r.reason ∧
      stored.retiredBy = r.retiredBy := by
  cases s with
  | memory ledger =>
      cases kept
      exact ⟨rfl, rfl, rfl⟩
  | database db => exact Row.toRetirement_eq_ok kept

namespace Http

def Request.IsRetire (r : Request) : Prop :=
  Resource.ofPath? r.target.path = some .retirements ∧ r.method = "POST"

variable {server : Server} {r : Request}

theorem status_ofFailure (f : Failure) : 400 ≤ (ofFailure f).status := by
  cases f <;> simp [ofFailure, badRequest, problem, Response.ofJson]

theorem status_success (data : Option Json) : (success data).status ≠ 201 := by
  cases data <;> simp [success, respond, Response.ofJson, Response.ofText]

theorem status_pageResponse (reply : Except Failure Page) : (pageResponse reply).status ≠ 201 := by
  cases reply with
  | ok page => exact status_success _
  | error f => exact fun same => absurd (status_ofFailure f) (by rw [pageResponse] at same; omega)

theorem status_decodeBody {α : Type} {read : Json → Option α} {response : Response}
    (refused : decodeBody r read = .error response) : response.status = 400 := by
  unfold decodeBody at refused
  split at refused
  · cases refused
    rfl
  · split at refused
    · cases refused
      rfl
    · split at refused
      · cases refused
      · cases refused
        rfl

theorem status_decodeId {segment : List Char} {response : Response}
    (refused : decodeId segment = .error response) : response.status = 400 := by
  unfold decodeId at refused
  split at refused
  · cases refused
  · cases refused
    rfl

theorem status_get? (resource : Resource) {response : Response}
    (answer : get? server r resource = some response) : response.status ≠ 201 := by
  cases resource with
  | health =>
      cases answer
      exact status_success _
  | description =>
      cases answer
      simp [describe]
  | retirements =>
      cases answer
      unfold list
      split
      · simp [badRequest, problem, Response.ofJson]
      · exact status_pageResponse _
  | search => cases answer
  | retirement segment =>
      cases answer
      unfold showRetirement
      cases decoded : decodeId segment with
      | error response =>
          have status := status_decodeId decoded
          simp [status]
      | ok id =>
          dsimp only
          split
          · exact status_success _
          · simp [ofFailure, problem, Response.ofJson]
          · next f _ =>
              have := status_ofFailure f
              omega
  | enforcement segment =>
      cases answer
      unfold checkEnforcement
      cases decoded : decodeId segment with
      | error response =>
          have status := status_decodeId decoded
          simp [status]
      | ok id => exact status_success _
  | monitorStatus =>
      cases answer
      exact status_success _

theorem status_handle_ne (none : asked? r = none) : (handle server r).1.status ≠ 201 := by
  unfold handle
  cases path : Resource.ofPath? r.target.path with
  | none => simp [notFound]
  | some resource =>
      have refused : (methodNotAllowed resource).status ≠ 201 := by simp [methodNotAllowed]
      dsimp only
      split
      · cases answer : get? server r resource with
        | none => exact refused
        | some response =>
            have status := status_get? resource answer
            exact status
      · cases answer : get? server r resource with
        | none => exact refused
        | some response =>
            have status := status_get? resource answer
            exact status
      · next post =>
          cases resource with
          | retirements =>
              simp only [asked?, path, post] at none
              simp only [post?, retire, Option.getD_some]
              cases decoded : decodeBody r RetireRequest.ofJson? with
              | ok body => simp [decoded, Except.toOption] at none
              | error response => simp [status_decodeBody decoded]
          | search =>
              simp only [post?, search, Option.getD_some]
              cases decoded : decodeBody r QuerySpec.ofJson? with
              | ok spec => exact status_pageResponse _
              | error response => simp [status_decodeBody decoded]
          | _ => exact refused
      · exact refused

theorem asked?_eq_some {body : RetireRequest} :
    asked? r = some body ↔ r.IsRetire ∧ decodeBody r RetireRequest.ofJson? = .ok body := by
  unfold asked? Request.IsRetire
  split
  · next path post =>
      cases decoded : decodeBody r RetireRequest.ofJson? <;>
        simp [path, post, Except.toOption]
  · next other =>
      constructor
      · intro absent
        cases absent
      · rintro ⟨⟨path, post⟩, _⟩
        exact absurd post (other path)

theorem handle_of_isRetire (named : r.IsRetire) :
    handle server r = retire server.service r := by
  unfold handle
  rw [named.1, named.2]
  rfl

theorem handle_of_asked? {body : RetireRequest} (asked : asked? r = some body) :
    handle server r =
      (receiptResponse (server.service.retire body.agreementId body.reason r.actor).1,
        (server.service.retire body.agreementId body.reason r.actor).2) := by
  obtain ⟨named, decoded⟩ := asked?_eq_some.mp asked
  rw [handle_of_isRetire named, retire, decoded]

theorem status_of_isRetire (named : r.IsRetire) (none : asked? r = none) :
    (handle server r).1.status = 400 := by
  rw [handle_of_isRetire named, retire]
  cases decoded : decodeBody r RetireRequest.ofJson? with
  | ok body => simp [asked?_eq_some.mpr ⟨named, decoded⟩] at none
  | error response => exact status_decodeBody decoded

theorem status_receiptResponse_ok (receipt : Receipt) :
    (receiptResponse (.ok receipt)).status = if receipt.wasNew then 201 else 200 := by
  unfold receiptResponse respond
  dsimp only
  split <;> rfl

theorem status_receiptResponse {reply : Reply Receipt} (none : reply.receipt? = none) :
    400 ≤ (receiptResponse reply).status := by
  cases reply with
  | ok receipt => cases none
  | failed f => exact status_ofFailure f
  | crashed => simp [receiptResponse, internalProblem, problem, Response.ofJson]

end Http

end RetirementLedger

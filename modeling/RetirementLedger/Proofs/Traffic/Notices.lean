import RetirementLedger.Proofs.Traffic.Records

namespace RetirementLedger

namespace RetireCall

def made (id : String) (call : RetireCall) : Bool :=
  call.receipt?.any fun receipt => receipt.wasNew && receipt.record.agreementId == id

def noticeDue (id : String) : RetireCall → Bool
  | .stored receipt => receipt.record.agreementId == id
  | _ => false

theorem not_noticeDue_of_isDone {call : RetireCall} (done : call.isDone = true) (id : String) :
    call.noticeDue id = false := by
  cases call <;> first | rfl | cases done

end RetireCall

namespace Traffic
open Relation

structure Accounted (t : Traffic) : Prop where
  made : ∀ id, t.calls.countP (·.made id) = t.log.countP (·.isServed id)
  owed : ∀ id,
    t.log.countP (·.isNotice id) + t.calls.countP (·.noticeDue id) = t.log.countP (·.isServed id)
  fresh : ∀ receipt, .stored receipt ∈ t.calls → receipt.wasNew = true
  delivered : t.service.delivered = t.log.filterMap Event.delivery?
  failures : t.service.auditFailures = t.log.countP Event.isRefused

variable {t u : Traffic}

theorem IsInitial.accounted (initial : t.IsInitial) : t.Accounted where
  made id := by simp [initial.noCalls, initial.noLog]
  owed id := by simp [initial.noCalls, initial.noLog]
  fresh receipt member := by simp [initial.noCalls] at member
  delivered := by simp [initial.noNotices, initial.noLog]
  failures := by simp [initial.noFailures, initial.noLog]

theorem countP_set_of_getElem? {calls : List RetireCall} {place : Nat} {old : RetireCall}
    (at_ : calls[place]? = some old) (new : RetireCall) (p : RetireCall → Bool) :
    (calls.set place new).countP p + (p old).toNat = calls.countP p + (p new).toNat := by
  obtain ⟨bound, rfl⟩ := List.getElem?_eq_some_iff.mp at_
  have counted : p calls[place] = true → 0 < calls.countP p := fun holds =>
    List.countP_pos_iff.mpr ⟨_, List.getElem_mem bound, holds⟩
  rw [List.countP_set bound]
  cases before : p calls[place] with
  | false => cases p new <;> simp
  | true =>
      have positive := counted before
      cases p new <;> simp <;> omega

/-- One call changes and something happens. The accounts stay right if they do for this call and for
what happens. -/
theorem Accounted.change (accounted : t.Accounted) {place : Nat} {old : RetireCall}
    (at_ : t.calls[place]? = some old) (new : RetireCall) (events : List Event) (service : Service)
    (made : ∀ id, (new.made id).toNat = (old.made id).toNat + events.countP (·.isServed id))
    (owed : ∀ id, events.countP (·.isNotice id) + (new.noticeDue id).toNat =
      (old.noticeDue id).toNat + events.countP (·.isServed id))
    (fresh : ∀ receipt, new = .stored receipt → receipt.wasNew = true)
    (delivered : service.delivered = t.service.delivered ++ events.filterMap Event.delivery?)
    (failures : service.auditFailures = t.service.auditFailures + events.countP Event.isRefused) :
    Accounted { service, calls := t.calls.set place new, log := t.log ++ events } where
  made id := by
    have changed := countP_set_of_getElem? at_ new (·.made id)
    have before := accounted.made id
    have here := made id
    dsimp only
    rw [List.countP_append]
    omega
  owed id := by
    have changed := countP_set_of_getElem? at_ new (·.noticeDue id)
    have before := accounted.owed id
    have here := owed id
    dsimp only
    rw [List.countP_append, List.countP_append]
    omega
  fresh receipt member := by
    rcases List.mem_or_eq_of_mem_set member with earlier | same
    · exact accounted.fresh receipt earlier
    · exact fresh receipt same.symm
  delivered := by rw [delivered, accounted.delivered, List.filterMap_append]
  failures := by rw [failures, accounted.failures, List.countP_append]

theorem Accounted.move (accounted : t.Accounted) (move : Move t u) : u.Accounted := by
  cases move with
  | adjust service holdings delivered failures =>
      exact
        { accounted with
          delivered := delivered.trans accounted.delivered
          failures := failures.trans accounted.failures }
  | begin =>
      refine { accounted with made := ?_, owed := ?_, fresh := ?_ }
      · intro id
        simpa [RetireCall.made, RetireCall.receipt?] using accounted.made id
      · intro id
        simpa [RetireCall.noticeDue] using accounted.owed id
      · intro receipt member
        simpa using accounted.fresh receipt (by simpa using member)
  | @insert r receipt after insertion sound =>
      constructor
      · intro id
        simpa [Event.isServed] using accounted.made id
      · intro id
        simpa [Event.isServed, Event.isNotice] using accounted.owed id
      · exact accounted.fresh
      · have nothing : [Event.inserted false receipt].filterMap Event.delivery? = [] := rfl
        simpa [Service.withHoldings, nothing] using accounted.delivered
      · simpa [Service.withHoldings, Event.isRefused] using accounted.failures
  | @check place agreementId reason actor call =>
      have change := accounted.change call (.checked (.create agreementId reason actor t.service.clock))
        [] t.service (fun _ => rfl) (fun _ => rfl) (fun _ same => by cases same) (by simp) rfl
      simpa using change
  | @fail place old reply call unstored failure =>
      have unmade (id : String) : old.made id = false := by simp [RetireCall.made, unstored]
      have nothing (id : String) : (RetireCall.done reply).made id = false := by
        simp [RetireCall.made, RetireCall.receipt?, failure]
      have unowed (id : String) : old.noticeDue id = false := by
        cases old with
        | stored receipt => cases unstored
        | _ => rfl
      have change := accounted.change call (.done reply) [] t.service
        (fun id => by rw [nothing, unmade]; rfl) (fun id => by rw [unowed]; rfl)
        (fun _ same => by cases same) (by simp) rfl
      simpa using change
  | @answer place r receipt after call insertion sound =>
      apply accounted.change call
      · intro id
        cases new : receipt.wasNew <;> cases same : receipt.record.agreementId == id <;>
          simp [RetireCall.made, RetireCall.receipt?, Event.isServed, new, same]
      · intro id
        cases new : receipt.wasNew <;> cases same : receipt.record.agreementId == id <;>
          simp [RetireCall.noticeDue, Event.isServed, Event.isNotice, new, same]
      · intro other same
        split at same
        · next new =>
            cases same
            exact new
        · cases same
      · simp [Service.withHoldings, Event.delivery?]
      · simp [Service.withHoldings, Event.isRefused]
  | @announce place receipt call =>
      have new := accounted.fresh receipt (List.mem_of_getElem? call)
      apply accounted.change call
      · intro id
        simp [RetireCall.made, RetireCall.receipt?, Event.isServed]
      · intro id
        cases same : receipt.record.agreementId == id <;>
          simp [RetireCall.noticeDue, Event.isServed, Event.isNotice, same]
      · intro _ same
        cases same
      · cases refused : t.service.refuses receipt.record.agreementId <;>
          simp [Service.announce, Event.delivery?, refused]
      · cases refused : t.service.refuses receipt.record.agreementId <;>
          simp [Service.announce, Event.isRefused, refused]

theorem Accounted.moves (accounted : t.Accounted) (moves : ReflTransGen Move t u) :
    u.Accounted :=
  moves_preserve moves accounted Accounted.move

def served (t : Traffic) (id : String) : Bool := t.log.any (·.isServed id)

theorem countP_isServed_le (log : List Event) (id : String) :
    log.countP (·.isServed id) ≤ (log.filterMap (Event.creation? id)).length := by
  induction log with
  | nil => simp
  | cons event rest ih =>
      have here : ([event].countP (·.isServed id)) ≤ ([event].filterMap (Event.creation? id)).length := by
        cases event with
        | announced r taken => simp [Event.isServed]
        | inserted byService receipt =>
            cases byService <;> cases new : receipt.wasNew <;>
              cases same : receipt.record.agreementId == id <;>
              simp [Event.isServed, Event.creation?, new, same]
      rw [← List.singleton_append, List.countP_append, List.filterMap_append, List.length_append]
      omega

theorem Recorded.countP_isServed (recorded : t.Recorded) (id : String) :
    t.log.countP (·.isServed id) = if t.served id then 1 else 0 := by
  have bound := countP_isServed_le t.log id
  have one : (t.created id).length ≤ 1 := by
    rw [recorded.created id]
    cases t.store.record? id <;> simp
  change _ ≤ (t.created id).length at bound
  cases served : t.served id with
  | true =>
      have positive : 0 < t.log.countP (·.isServed id) := by
        simpa [Traffic.served] using served
      simp
      omega
  | false =>
      simpa [Traffic.served] using served

theorem Accounted.countP_isNotice (accounted : t.Accounted)
    (settled : ∀ call ∈ t.calls, call.isDone = true) (id : String) :
    t.log.countP (·.isNotice id) = t.log.countP (·.isServed id) := by
  have none : t.calls.countP (·.noticeDue id) = 0 := by
    rw [List.countP_eq_zero]
    intro call member
    simp [RetireCall.not_noticeDue_of_isDone (settled call member) id]
  have owed := accounted.owed id
  omega

end Traffic

end RetirementLedger

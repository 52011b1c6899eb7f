import RetirementLedger.Proofs.Database.Paging
import RetirementLedger.Proofs.Traffic.Notices

namespace RetirementLedger

namespace RetireCall

def hasStored (call : RetireCall) : Bool := call.receipt?.any (·.wasNew)

def hasAnnounced (call : RetireCall) : Bool := call.isDone && call.hasStored

theorem hasStored_of_failure {reply : Reply Receipt} (failure : reply.receipt? = none) :
    (RetireCall.done reply).hasStored = false := by
  simp [hasStored, receipt?, failure]

end RetireCall

namespace Store

variable {s after : Store}

def added (s after : Store) : List Retirement := after.records.filter (· ∉ s.records)

theorem added_self (s : Store) : s.added s = [] := by simp [added]

theorem mem_added {r : Retirement} : r ∈ s.added after ↔ r ∈ after.records ∧ r ∉ s.records := by
  simp [added]

theorem nodup_records (sound : s.Sound) : s.records.Nodup :=
  (ascending_records sound).imp fun less same => by
    rw [same] at less
    exact String.lt_irrefl _ less

theorem Insertion.perm_records {r : Retirement} {receipt : Receipt} (sound : s.Sound)
    (sound' : after.Sound) (insertion : Insertion s r (.ok receipt) after) (new : receipt.wasNew = true) :
    after.records.Perm (receipt.record :: s.records) ∧ receipt.record ∉ s.records := by
  have about := insertion.agreementId sound
  cases insertion with
  | known accepted held => cases new
  | @made stored after accepted free kept content kind =>
      dsimp only at about ⊢
      have fresh : stored ∉ s.records := by
        rw [mem_records sound, Holds, about, free]
        simp
      refine ⟨(List.perm_ext_iff_of_nodup (nodup_records sound')
        (List.nodup_cons.mpr ⟨fresh, nodup_records sound⟩)).mpr fun other => ?_, fresh⟩
      rw [mem_records sound', List.mem_cons, mem_records sound, Holds, Holds, content]
      by_cases same : other.agreementId = r.agreementId
      · rw [if_pos same, same, free]
        simp [eq_comm]
      · have other_ne : other ≠ stored := by
          rintro rfl
          exact same about
        rw [if_neg same]
        simp [other_ne]

theorem Insertion.added {r : Retirement} {receipt : Receipt} (sound : s.Sound) (sound' : after.Sound)
    (insertion : Insertion s r (.ok receipt) after) (new : receipt.wasNew = true) :
    s.added after = [receipt.record] := by
  obtain ⟨perm, fresh⟩ := insertion.perm_records sound sound' new
  have others : s.records.filter (· ∉ s.records) = [] := by
    simp
  have filtered := perm.filter (· ∉ s.records)
  rw [List.filter_cons, if_pos (by simpa using fresh), others] at filtered
  exact List.perm_singleton.mp filtered

end Store

namespace Traffic

def notices (t : Traffic) : Nat := t.service.delivered.length + t.service.auditFailures

/-- What a step of a call does to the records and to the notices, in terms of the call before and after. -/
structure Advances (t after : Traffic) (place : Nat) (old new : RetireCall) : Prop where
  calls : after.calls = t.calls.set place new
  added : (t.store.added after.store).length + old.hasStored.toNat = new.hasStored.toNat
  records : after.store.records.length = t.store.records.length + (t.store.added after.store).length
  notices : after.notices + old.hasAnnounced.toNat = t.notices + new.hasAnnounced.toNat
  done : old.isDone = true → new = old

variable {t after : Traffic} {place : Nat} {old new : RetireCall}

theorem Advances.of_service (calls : after.calls = t.calls.set place new)
    (service : after.service = t.service) (stored : new.hasStored = old.hasStored)
    (announced : new.hasAnnounced = old.hasAnnounced) (done : old.isDone = true → new = old) :
    Advances t after place old new where
  calls := calls
  added := by rw [Traffic.store, Traffic.store, service, Store.added_self, stored, List.length_nil, Nat.zero_add]
  records := by rw [Traffic.store, Traffic.store, service, Store.added_self]; rfl
  notices := by rw [Traffic.notices, service, announced]; rfl
  done := done

theorem notices_announce (s : Service) (r : Retirement) :
    (s.announce r).delivered.length + (s.announce r).auditFailures =
      s.delivered.length + s.auditFailures + 1 := by
  unfold Service.announce
  split
  · rfl
  · simp only [List.length_append, List.length_singleton]
    omega

theorem advances (sound : t.store.Sound) (accounted : t.Accounted) (here : t.calls[place]? = some old) :
    ∃ new, Advances t (t.advance place) place old new := by
  have taken : t.advance place =
      ⟨(old.step t.service).2, t.calls.set place (old.step t.service).1, t.log ++ old.events t.service⟩ := by
    simp only [advance, here]
  rw [taken]
  cases old with
  | asked agreementId reason actor =>
      simp only [RetireCall.step]
      cases (Retirement.create agreementId reason actor t.service.clock).validate with
      | error f => exact ⟨_, .of_service rfl rfl rfl rfl (by simp [RetireCall.isDone])⟩
      | ok u => exact ⟨_, .of_service rfl rfl rfl rfl (by simp [RetireCall.isDone])⟩
  | done reply => exact ⟨_, .of_service rfl rfl rfl rfl fun _ => rfl⟩
  | stored receipt =>
      have new := accounted.fresh receipt (List.mem_of_getElem? here)
      have store : (t.service.announce receipt.record).holdings = t.store := Service.holdings_announce _
      refine ⟨.done (.ok receipt), rfl, ?_, ?_, ?_, by simp [RetireCall.isDone]⟩
      · change (t.store.added (t.service.announce receipt.record).holdings).length + _ = _
        rw [store, Store.added_self, List.length_nil, Nat.zero_add]
        rfl
      · change (t.service.announce receipt.record).holdings.records.length = _ +
          (t.store.added (t.service.announce receipt.record).holdings).length
        rw [store, Store.added_self]
        rfl
      · simp only [notices, RetireCall.step, RetireCall.hasAnnounced, RetireCall.isDone,
          RetireCall.hasStored, RetireCall.receipt?, Reply.receipt?_ok, Option.any_some, new]
        exact notices_announce t.service receipt.record
  | checked r =>
      rw [RetireCall.step_checked]
      rcases Service.insert_cases sound r with
        ⟨reply, failure, answer⟩ | ⟨receipt, after, insertion, sound', answer⟩
      · have ended : RetireCall.ofReply reply = .done reply := by
          cases reply with
          | ok receipt => cases failure
          | _ => rfl
        rw [answer, ended]
        refine ⟨_, .of_service rfl rfl ?_ ?_ (by simp [RetireCall.isDone])⟩
        · exact RetireCall.hasStored_of_failure failure
        · rw [RetireCall.hasAnnounced, RetireCall.hasStored_of_failure failure]
          rfl
      · rw [answer]
        cases new : receipt.wasNew with
        | true =>
            have grown := (insertion.perm_records sound sound' new).1.length_eq
            have added := insertion.added sound sound' new
            refine ⟨.stored receipt, ?_, ?_, ?_, rfl, by simp [RetireCall.isDone]⟩
            · simp only [RetireCall.ofReply, new, if_true]
            · change (t.store.added after).length + _ = _
              rw [added]
              simp [RetireCall.hasStored, RetireCall.receipt?, new]
            · change after.records.length = _ + (t.store.added after).length
              rw [added, grown]
              rfl
        | false =>
            -- The agreement had a record before, and the store is as it was.
            have kept : t.service.withHoldings after = t.service := by
              cases insertion with
              | known accepted held => rfl
              | made accepted free kept content kind => cases new
            refine ⟨.done (.ok receipt), .of_service ?_ kept ?_ ?_ (by simp [RetireCall.isDone])⟩
            · simp only [RetireCall.ofReply, new, Bool.false_eq_true, if_false]
            · simp [RetireCall.hasStored, RetireCall.receipt?, new]
            · simp [RetireCall.hasAnnounced, RetireCall.hasStored, RetireCall.receipt?, new]

def flagged (t : Traffic) (p : RetireCall → Bool) (place : Nat) : Bool := (t.calls[place]?).any p

variable {p : RetireCall → Bool} {places : List Nat}

theorem countP_flagged_advance (advances : Advances t after place old new)
    (here : t.calls[place]? = some old) (distinct : places.Nodup) (p : RetireCall → Bool) :
    places.countP (after.flagged p) + (if place ∈ places then (p old).toNat else 0) =
      places.countP (t.flagged p) + (if place ∈ places then (p new).toNat else 0) := by
  have bound := (List.getElem?_eq_some_iff.mp here).1
  have others {other : Nat} (differs : other ≠ place) : after.flagged p other = t.flagged p other := by
    rw [flagged, advances.calls, List.getElem?_set_ne (Ne.symm differs), flagged]
  have before : t.flagged p place = p old := by rw [flagged, here, Option.any_some]
  have now : after.flagged p place = p new := by
    rw [flagged, advances.calls, List.getElem?_set_self bound, Option.any_some]
  induction places with
  | nil => rfl
  | cons first rest ih =>
      obtain ⟨absent, distinct⟩ := List.nodup_cons.mp distinct
      have rest := ih distinct
      by_cases same : place = first
      · subst same
        simp only [absent, if_false, Nat.add_zero] at rest
        simp only [List.countP_cons, before, now, rest, List.mem_cons, true_or, if_true]
        cases p old <;> cases p new <;> simp
      · simp only [List.countP_cons, others (Ne.symm same), List.mem_cons, same, false_or]
        omega

theorem flagged_append {begun : List RetireCall} (calls : after.calls = t.calls ++ begun)
    (unflagged : ∀ call ∈ begun, p call = false) : after.flagged p = t.flagged p := by
  funext place
  rw [flagged, calls, flagged, List.getElem?_append]
  split
  · rfl
  · next beyond =>
      rw [List.getElem?_eq_none (Nat.not_lt.mp beyond)]
      cases here : begun[place - t.calls.length]? with
      | none => rfl
      | some call => exact unflagged call (List.mem_of_getElem? here)

end Traffic

end RetirementLedger

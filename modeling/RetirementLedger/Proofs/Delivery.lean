import Mathlib.Data.List.Nodup
import RetirementLedger.Proofs.NoticeQueue
import RetirementLedger.Proofs.Traffic.Notices

namespace RetirementLedger

theorem length_filterMap_eq {α β γ : Type} [BEq γ] [LawfulBEq γ] {as : List α} {bs : List β}
    {f : α → Option γ} {g : β → Option γ}
    (same : ∀ c, as.countP (f · == some c) = bs.countP (g · == some c)) :
    (as.filterMap f).length = (bs.filterMap g).length := by
  have perm : (as.filterMap f).Perm (bs.filterMap g) :=
    List.perm_iff_count.mpr fun c => by rw [List.count_filterMap, List.count_filterMap, same]
  exact perm.length_eq

namespace RetireCall

def newId? (call : RetireCall) : Option String :=
  call.receipt?.bind fun receipt => if receipt.wasNew then some receipt.record.agreementId else none

theorem made_eq (call : RetireCall) (id : String) : call.made id = (call.newId? == some id) := by
  unfold made newId?
  cases call.receipt? with
  | none => rfl
  | some receipt => cases new : receipt.wasNew <;> simp [new]

end RetireCall

def Event.noticeId? : Event → Option String
  | .inserted _ _ => none
  | .announced r _ => some r.agreementId

theorem Event.isNotice_eq (event : Event) (id : String) :
    event.isNotice id = (event.noticeId? == some id) := by
  cases event <;> simp [isNotice, noticeId?]

namespace Traffic

variable {t : Traffic}

def newIds (t : Traffic) : List String := t.calls.filterMap RetireCall.newId?

theorem length_noticeIds (log : List Event) :
    (log.filterMap Event.noticeId?).length =
      (log.filterMap Event.delivery?).length + log.countP Event.isRefused := by
  induction log with
  | nil => rfl
  | cons event log ih =>
      cases event with
      | inserted byService receipt => exact ih
      | announced r taken =>
          cases taken <;> simp [Event.noticeId?, Event.delivery?, Event.isRefused, ih] <;> omega

theorem nodup_newIds (recorded : t.Recorded) (accounted : t.Accounted) : t.newIds.Nodup := by
  rw [List.nodup_iff_count_le_one]
  intro id
  have once := recorded.countP_isServed id
  rw [← accounted.made] at once
  rw [newIds, List.count_filterMap]
  simp only [← RetireCall.made_eq, once]
  split <;> decide

theorem length_newIds (accounted : t.Accounted) (settled : ∀ call ∈ t.calls, call.isDone = true) :
    t.newIds.length = t.service.delivered.length + t.service.auditFailures := by
  have same : t.newIds.length = (t.log.filterMap Event.noticeId?).length := by
    refine length_filterMap_eq fun id => ?_
    simp only [← RetireCall.made_eq, ← Event.isNotice_eq]
    rw [accounted.made, accounted.countP_isNotice settled]
  rw [same, length_noticeIds, accounted.delivered, accounted.failures]

def announcement? (t : Traffic) : Act → Option Retirement
  | .advance place =>
    match t.calls[place]? with
    | some (.stored receipt) => some receipt.record
    | _ => none
  | _ => none

theorem step_silent {act : Act} (silent : t.announcement? act = none) :
    (t.step act).service.delivered = t.service.delivered ∧
      (t.step act).service.auditFailures = t.service.auditFailures := by
  rcases t.service_step act with ⟨_, same⟩ | ⟨place, receipt, rfl, here, -⟩ | ⟨_, -, same⟩ |
    ⟨_, -, same⟩ | ⟨_, -, same⟩
  · exact same ▸ ⟨rfl, rfl⟩
  · simp [announcement?, here] at silent
  · exact same ▸ ⟨rfl, rfl⟩
  · exact same ▸ ⟨rfl, rfl⟩
  · exact same ▸ ⟨rfl, rfl⟩

theorem step_announcing {act : Act} {r : Retirement} (announced : t.announcement? act = some r) :
    (t.step act).service = t.service.announce r := by
  cases act with
  | advance place =>
      simp only [announcement?] at announced
      cases known : t.calls[place]? with
      | none => simp [known] at announced
      | some call =>
          cases call with
          | stored receipt =>
              rw [known] at announced
              cases announced
              simp only [step, advance, known]
              rfl
          | _ => simp [known] at announced
  | _ => cases announced

end Traffic

structure QueuedTraffic where
  traffic : Traffic
  sink : QueueTraffic

namespace QueuedTraffic

inductive Act where
  | traffic (act : Traffic.Act)
  | take
  | deliver (accepted : Bool)
  | close
  | join

variable (t : QueuedTraffic)

/-- An act at the service, which finds the queue as it is. What it announces it publishes there. -/
def serve (act : Traffic.Act) : QueuedTraffic where
  traffic := (t.traffic.step (.setRefusals fun _ => t.sink.queue.isRefusing)).step act
  sink :=
    match t.traffic.announcement? act with
    | none => t.sink
    | some r => t.sink.step (.publish (.ofRetirement r))

def step : Act → QueuedTraffic
  | .traffic act => t.serve act
  | .take => { t with sink := t.sink.step .take }
  | .deliver accepted => { t with sink := t.sink.step (.deliver accepted) }
  | .close => { t with sink := t.sink.step .close }
  | .join => { t with sink := t.sink.step .join }

def run (acts : List Act) : QueuedTraffic := acts.foldl step t

structure Linked : Prop where
  delivered : t.traffic.service.delivered = t.sink.accepted
  failures : t.traffic.service.auditFailures = t.sink.answers.countP (!·.2.isOk)

variable {t}

theorem exists_run_step (act : Act) :
    (∃ acts, (t.step act).traffic = t.traffic.run acts) ∧
      ∃ acts, (t.step act).sink = t.sink.run acts := by
  cases act with
  | traffic act =>
      refine ⟨⟨[.setRefusals _, act], rfl⟩, ?_⟩
      simp only [step, serve]
      cases t.traffic.announcement? act with
      | none => exact ⟨[], rfl⟩
      | some r => exact ⟨[.publish _], rfl⟩
  | take => exact ⟨⟨[], rfl⟩, [.take], rfl⟩
  | deliver accepted => exact ⟨⟨[], rfl⟩, [.deliver accepted], rfl⟩
  | close => exact ⟨⟨[], rfl⟩, [.close], rfl⟩
  | join => exact ⟨⟨[], rfl⟩, [.join], rfl⟩

theorem exists_run (acts : List Act) :
    (∃ acts', (t.run acts).traffic = t.traffic.run acts') ∧
      ∃ acts', (t.run acts).sink = t.sink.run acts' := by
  induction acts generalizing t with
  | nil => exact ⟨⟨[], rfl⟩, [], rfl⟩
  | cons act rest ih =>
      obtain ⟨⟨first, traffic⟩, first', sink⟩ := exists_run_step (t := t) act
      obtain ⟨⟨more, traffic'⟩, more', sink'⟩ := ih (t := t.step act)
      refine ⟨⟨first ++ more, ?_⟩, first' ++ more', ?_⟩
      · rw [traffic] at traffic'
        exact traffic'.trans List.foldl_append.symm
      · rw [sink] at sink'
        exact sink'.trans List.foldl_append.symm

theorem Linked.serve (linked : t.Linked) (act : Traffic.Act) : (t.serve act).Linked := by
  have told : (t.traffic.step (.setRefusals fun _ => t.sink.queue.isRefusing)).announcement? act =
      t.traffic.announcement? act := by cases act <;> rfl
  cases announced : t.traffic.announcement? act with
  | none =>
      obtain ⟨delivered, failures⟩ := Traffic.step_silent (told.trans announced)
      constructor
      · simp only [QueuedTraffic.serve, announced]
        exact delivered.trans linked.delivered
      · simp only [QueuedTraffic.serve, announced]
        exact failures.trans linked.failures
  | some r =>
      have service : (t.serve act).traffic.service =
          Service.announce { t.traffic.service with refuses := fun _ => t.sink.queue.isRefusing } r :=
        Traffic.step_announcing (told.trans announced)
      have sink : (t.serve act).sink = t.sink.step (.publish (.ofRetirement r)) := by
        simp only [QueuedTraffic.serve, announced]
      cases refusing : t.sink.queue.isRefusing with
      | true =>
          obtain ⟨f, answer, -⟩ := t.sink.queue.publish_refusing (.ofRetirement r) refusing
          rw [refusing] at service
          simp only [QueueTraffic.step, answer] at sink
          constructor
          · rw [service, sink, QueueTraffic.accepted, QueueTraffic.accepted_append]
            exact linked.delivered.trans (List.append_nil _).symm
          · rw [service, sink, List.countP_append, ← linked.failures]
            rfl
      | false =>
          have answer := t.sink.queue.publish_accepting (.ofRetirement r) refusing
          rw [refusing] at service
          simp only [QueueTraffic.step, answer] at sink
          constructor
          · rw [service, sink, QueueTraffic.accepted, QueueTraffic.accepted_append]
            exact congrArg (· ++ [Notice.ofRetirement r]) linked.delivered
          · rw [service, sink, List.countP_append]
            exact linked.failures

theorem Linked.run (linked : t.Linked) (acts : List Act) : (t.run acts).Linked := by
  induction acts generalizing t with
  | nil => exact linked
  | cons act rest ih =>
      refine ih (t := t.step act) ?_
      cases act with
      | traffic act => exact linked.serve act
      | _ => exact ⟨linked.delivered, linked.failures⟩

/-- Notices in a queue are neither lost nor doubled nor put in another order, however senders, the worker
and a shutdown come between each other's steps. So once a shutdown has returned and no call is under way, the
agreements that calls have retired are as many as the notices that were delivered, those that the sink has
refused and those that the queue has refused. -/
theorem notices_conserved {capacity : Nat} {q : NoticeQueue}
    (made : NoticeQueue.withCapacity? capacity = some q) :
    (∀ acts, let t := (QueueTraffic.opened q).run acts
      t.queue.handed.map (·.1) <+: t.accepted ∧
        t.queue.waiting.length ≤ max capacity 1 ∧
        (∀ n, (n, .ok ()) ∉ t.answers → n ∉ t.queue.handed.map (·.1)) ∧
        (∀ more, ∃ late, (t.run (.close :: more)).answers = t.answers ++ late ∧
          ∀ answer ∈ late, answer.2 = .error .closed) ∧
        (t.hasReturned = true → t.queue.handed.map (·.1) = t.accepted) ∧
        t.queue.deliveryFailures = t.rejections ∧
        ∀ accepts, ∃ worker : List QueueTraffic.Act,
          (∀ act ∈ worker, act = .take ∨ ∃ accepted, act = .deliver accepted) ∧
          (t.run (.close :: worker ++ [.join])).queue = t.queue.shutdown accepts ∧
          (t.run (.close :: worker ++ [.join])).hasReturned = true) ∧
    ∀ start : Traffic, start.IsInitial → ∀ acts,
      let t := (QueuedTraffic.mk start (.opened q)).run acts
      let queue := t.sink.queue
      t.sink.hasReturned = true → (∀ call ∈ t.traffic.calls, call.isDone = true) →
        t.traffic.newIds.Nodup ∧
        t.traffic.newIds.length =
          queue.delivered.length + queue.deliveryFailures + t.traffic.service.auditFailures ∧
        t.traffic.service.auditFailures = t.sink.answers.countP (!·.2.isOk) := by
  have sound := QueueTraffic.sound_opened made
  constructor
  · intro acts t
    have kept : t.Sound (max capacity 1) := sound.run acts
    exact ⟨kept.handed_prefix, kept.room, fun n refused => kept.not_handed refused,
      QueueTraffic.answers_of_closed (t := t.step .close) rfl, kept.handed_of_returned,
      kept.rejections, fun accepts => QueueTraffic.exists_run_shutdown accepts t⟩
  · intro start initial acts t queue returned settled
    obtain ⟨⟨served, traffic⟩, put, sink⟩ := exists_run (t := ⟨start, .opened q⟩) acts
    have moves := Traffic.run_moves initial.sound served
    have accounted : t.traffic.Accounted := by
      rw [traffic]
      exact initial.accounted.moves moves
    have recorded : t.traffic.Recorded := by
      rw [traffic]
      exact initial.recorded.moves moves
    have kept : t.sink.Sound (max capacity 1) := by
      rw [sink]
      exact sound.run put
    have linked : t.Linked :=
      Linked.run (t := ⟨start, .opened q⟩) ⟨initial.noNotices, initial.noFailures⟩ acts
    refine ⟨Traffic.nodup_newIds recorded accounted, ?_, linked.failures⟩
    have handed : queue.handed.length = queue.delivered.length + queue.deliveryFailures := by
      rw [List.length_eq_countP_add_countP fun entry => entry.2, NoticeQueue.delivered,
        NoticeQueue.deliveryFailures, List.length_map, ← List.countP_eq_length_filter]
      simp
    have all := congrArg List.length (kept.handed_of_returned returned)
    rw [List.length_map, handed, ← linked.delivered] at all
    rw [Traffic.length_newIds accounted settled, all]

theorem notices_conserved_refused :
    let q : NoticeQueue := { capacity := 1 }
    let start : Traffic := { service := { store := ⟨.memory .empty, .none⟩, clock := .epoch } }
    let call (id : String) (place : Nat) : List Act :=
      (Traffic.Act.ask id "MANUAL" "alice" :: List.replicate 3 (.advance place)).map .traffic
    let acts := call "a-1" 0 ++ call "a-2" 1 ++ [.close, .take, .deliver false, .join]
    let t := (QueuedTraffic.mk start (.opened q)).run acts
    NoticeQueue.withCapacity? 0 = some q ∧ start.IsInitial ∧
      t.sink.hasReturned = true ∧ (∀ call ∈ t.traffic.calls, call.isDone = true) ∧
      t.traffic.newIds.length = t.sink.queue.delivered.length + t.sink.queue.deliveryFailures +
        t.traffic.service.auditFailures ∧
      t.sink.queue.deliveryFailures = 1 ∧ t.traffic.service.auditFailures = 1 := by
  intro q start call acts t
  have made : NoticeQueue.withCapacity? 0 = some q := rfl
  have initial : start.IsInitial := ⟨.inl rfl, rfl, rfl, rfl, rfl⟩
  have returned : t.sink.hasReturned = true := by decide
  have settled : ∀ call ∈ t.traffic.calls, call.isDone = true := by decide
  obtain ⟨-, count, -⟩ := (notices_conserved made).2 start initial acts returned settled
  have failed : t.sink.queue.deliveryFailures = 1 := by decide
  have refused : t.traffic.service.auditFailures = 1 := by decide
  refine ⟨made, initial, returned, settled, ?_, failed, refused⟩
  -- Both sides are the same run. Without this Lean would compute the lengths.
  with_reducible exact count

end QueuedTraffic

end RetirementLedger

import Mathlib.Logic.Function.Iterate
import RetirementLedger.Audit

namespace RetirementLedger

namespace NoticeQueue

def isRefusing (q : NoticeQueue) : Bool := q.isClosed || decide (q.capacity ≤ q.waiting.length)

def hasEnded (q : NoticeQueue) : Bool := q.isClosed && q.waiting.isEmpty && q.inHand.isNone

def contents (q : NoticeQueue) : List Notice :=
  q.handed.map (·.1) ++ q.inHand.toList ++ q.waiting

variable (q : NoticeQueue)

theorem publish_refusing (n : Notice) (refusing : q.isRefusing = true) :
    ∃ f, q.publish n = (.error f, q) ∧ (q.isClosed = true → f = .closed) := by
  unfold publish
  cases closed : q.isClosed with
  | true => exact ⟨.closed, rfl, fun _ => rfl⟩
  | false =>
      have full : ¬ q.waiting.length < q.capacity := by
        simpa [isRefusing, closed] using refusing
      exact ⟨.queueFull, by simp [full], fun open_ => by cases open_⟩

theorem publish_accepting (n : Notice) (accepting : q.isRefusing = false) :
    q.publish n = (.ok (), { q with waiting := q.waiting ++ [n] }) := by
  obtain ⟨isOpen, room⟩ : q.isClosed = false ∧ q.waiting.length < q.capacity := by
    simpa [isRefusing] using accepting
  simp [publish, isOpen, room]

theorem take_cases :
    q.take = q ∨ ∃ n rest, q.inHand = none ∧ q.waiting = n :: rest ∧
      q.take = { q with inHand := some n, waiting := rest } := by
  cases hand : q.inHand with
  | some n => exact .inl (by simp [take, hand])
  | none =>
      cases waiting : q.waiting with
      | nil => exact .inl (by simp [take, hand, waiting])
      | cons n rest => exact .inr ⟨n, rest, rfl, rfl, by simp [take, hand, waiting]⟩

theorem deliver_cases (accepts : Notice → Bool) :
    q.inHand = none ∧ q.deliver accepts = q ∨ ∃ n, q.inHand = some n ∧
      q.deliver accepts = { q with inHand := none, handed := q.handed ++ [(n, accepts n)] } := by
  cases hand : q.inHand with
  | none => exact .inl ⟨rfl, by simp [deliver, hand]⟩
  | some n => exact .inr ⟨n, rfl, by simp [deliver, hand]⟩

def handOn (accepts : Notice → Bool) (q : NoticeQueue) : NoticeQueue := q.take.deliver accepts

theorem drain_eq (accepts : Notice → Bool) : q.drain accepts = (handOn accepts)^[q.waiting.length + 1] q := by
  have rounds := List.foldl_const (handOn accepts) q (List.range (q.waiting.length + 1))
  rwa [List.length_range] at rounds

theorem handOn_spec (accepts : Notice → Bool) :
    (q.handOn accepts).inHand = none ∧
      (q.handOn accepts).waiting = if q.inHand.isNone then q.waiting.tail else q.waiting := by
  cases hand : q.inHand with
  | some n => simp [handOn, take, deliver, hand]
  | none => cases waiting : q.waiting <;> simp [handOn, take, deliver, hand, waiting]

theorem drained (accepts : Notice → Bool) : (q.drain accepts).waiting = [] ∧ (q.drain accepts).inHand = none := by
  have rounds (n : Nat) (q : NoticeQueue) (hand : q.inHand = none) (few : q.waiting.length ≤ n) :
      ((handOn accepts)^[n] q).waiting = [] ∧ ((handOn accepts)^[n] q).inHand = none := by
    induction n generalizing q with
    | zero => exact ⟨List.eq_nil_of_length_eq_zero (Nat.le_zero.mp few), hand⟩
    | succ n ih =>
        obtain ⟨free, rest⟩ := q.handOn_spec accepts
        rw [hand] at rest
        exact ih _ free (by simp [rest]; omega)
  obtain ⟨free, rest⟩ := q.handOn_spec accepts
  rw [drain_eq, Function.iterate_succ_apply]
  refine rounds _ _ free ?_
  rw [rest]
  split <;> simp

end NoticeQueue

structure QueueTraffic where
  queue : NoticeQueue
  /-- The notices that were published, oldest first, each with the answer. -/
  answers : List (Notice × Except AuditFailure Unit) := []
  /-- How many of the notices handed to it the sink has refused. -/
  rejections : Nat := 0
  /-- The shutdown, which waits for the worker, has returned. -/
  hasReturned : Bool := false

namespace QueueTraffic

inductive Act where
  | publish (n : Notice)
  | take
  | deliver (accepted : Bool)
  | close
  | join
  deriving DecidableEq

variable (t : QueueTraffic)

def step : Act → QueueTraffic
  | .publish n =>
    { t with queue := (t.queue.publish n).2, answers := t.answers ++ [(n, (t.queue.publish n).1)] }
  | .take => { t with queue := t.queue.take }
  | .deliver accepted =>
    { t with
      queue := t.queue.deliver fun _ => accepted
      rejections := t.rejections + (t.queue.inHand.isSome && !accepted).toNat }
  | .close => { t with queue := t.queue.close }
  | .join => { t with hasReturned := t.hasReturned || t.queue.hasEnded }

def run (acts : List Act) : QueueTraffic := acts.foldl step t

def accepted? (answer : Notice × Except AuditFailure Unit) : Option Notice :=
  answer.2.toOption.map fun _ => answer.1

def accepted : List Notice := t.answers.filterMap accepted?

/-- What holds of a queue for `places` notices, whatever has happened to it. -/
structure Sound (places : Nat) : Prop where
  order : t.queue.contents = t.accepted
  capacity : t.queue.capacity = places
  room : t.queue.waiting.length ≤ places
  rejections : t.queue.deliveryFailures = t.rejections
  returned : t.hasReturned = true → t.queue.hasEnded = true

variable {t} {places : Nat}

theorem accepted_append (answers : List (Notice × Except AuditFailure Unit)) (n : Notice)
    (answer : Except AuditFailure Unit) :
    (answers ++ [(n, answer)]).filterMap accepted? =
      answers.filterMap accepted? ++ (answer.toOption.map fun _ => n).toList := by
  cases answer <;> simp [accepted?, Except.toOption]

theorem Sound.publish (sound : t.Sound places) (n : Notice) : (t.step (.publish n)).Sound places := by
  cases refusing : t.queue.isRefusing with
  | true =>
      obtain ⟨f, answer, -⟩ := t.queue.publish_refusing n refusing
      simp only [step, answer]
      refine { sound with order := ?_ }
      rw [accepted, accepted_append]
      exact sound.order.trans (List.append_nil _).symm
  | false =>
      have answer := t.queue.publish_accepting n refusing
      obtain ⟨isOpen, room⟩ : t.queue.isClosed = false ∧ t.queue.waiting.length < t.queue.capacity := by
        simpa [NoticeQueue.isRefusing] using refusing
      simp only [step, answer]
      refine { sound with order := ?_, room := ?_, returned := ?_ }
      · have order := sound.order
        simp only [NoticeQueue.contents, accepted] at order ⊢
        rw [accepted_append, ← order, List.append_assoc _ t.queue.waiting]
        rfl
      · have capacity := sound.capacity
        simp only [List.length_append, List.length_singleton]
        omega
      · intro returned
        have ended := sound.returned returned
        simp [NoticeQueue.hasEnded, isOpen] at ended

theorem Sound.take (sound : t.Sound places) : (t.step .take).Sound places := by
  simp only [step]
  rcases t.queue.take_cases with same | ⟨n, rest, hand, waiting, taken⟩
  · rw [same]
    exact sound
  · rw [taken]
    refine { sound with order := ?_, room := ?_, returned := ?_ }
    · have order := sound.order
      simp only [NoticeQueue.contents, accepted, hand, waiting] at order ⊢
      simpa using order
    · have room := sound.room
      rw [waiting, List.length_cons] at room
      exact Nat.le_of_succ_le room
    · intro returned
      have ended := sound.returned returned
      simp [NoticeQueue.hasEnded, waiting] at ended

theorem Sound.deliver (sound : t.Sound places) (accepted : Bool) :
    (t.step (.deliver accepted)).Sound places := by
  simp only [step]
  rcases t.queue.deliver_cases fun _ => accepted with ⟨hand, same⟩ | ⟨n, hand, delivered⟩
  · rw [same, hand]
    exact sound
  · rw [delivered, hand]
    refine { sound with order := ?_, rejections := ?_, returned := ?_ }
    · have order := sound.order
      simp only [NoticeQueue.contents, QueueTraffic.accepted, hand] at order ⊢
      simpa using order
    · have rejections := sound.rejections
      simp only [NoticeQueue.deliveryFailures] at rejections ⊢
      cases accepted <;> simp [rejections]
    · intro returned
      have ended := sound.returned returned
      simp [NoticeQueue.hasEnded, hand] at ended

theorem Sound.step (sound : t.Sound places) (act : Act) : (t.step act).Sound places := by
  cases act with
  | publish n => exact sound.publish n
  | take => exact sound.take
  | deliver accepted => exact sound.deliver accepted
  | close =>
      refine { sound with returned := fun returned => ?_ }
      have ended := sound.returned returned
      simp only [NoticeQueue.hasEnded, Bool.and_eq_true] at ended ⊢
      exact ⟨⟨rfl, ended.1.2⟩, ended.2⟩
  | join =>
      refine { sound with returned := fun returned => ?_ }
      rcases Bool.or_eq_true _ _ ▸ returned with before | now
      · exact sound.returned before
      · exact now

theorem Sound.run (sound : t.Sound places) (acts : List Act) : (t.run acts).Sound places := by
  induction acts generalizing t with
  | nil => exact sound
  | cons act rest ih => exact ih (sound.step act)

theorem run_append (before after : List Act) : t.run (before ++ after) = (t.run before).run after :=
  List.foldl_append

theorem isClosed_step (closed : t.queue.isClosed = true) (act : Act) :
    (t.step act).queue.isClosed = true := by
  cases act with
  | publish n =>
      obtain ⟨f, answer, -⟩ := t.queue.publish_refusing n (by simp [NoticeQueue.isRefusing, closed])
      simp only [QueueTraffic.step, answer]
      exact closed
  | take =>
      simp only [QueueTraffic.step]
      rcases t.queue.take_cases with same | ⟨n, rest, hand, waiting, taken⟩
      · rwa [same]
      · rwa [taken]
  | deliver accepted =>
      simp only [QueueTraffic.step]
      rcases t.queue.deliver_cases fun _ => accepted with ⟨hand, same⟩ | ⟨n, hand, delivered⟩
      · rwa [same]
      · rwa [delivered]
  | close => rfl
  | join => exact closed

theorem answers_of_closed (closed : t.queue.isClosed = true) (acts : List Act) :
    ∃ late, (t.run acts).answers = t.answers ++ late ∧
      ∀ answer ∈ late, answer.2 = .error .closed := by
  induction acts generalizing t with
  | nil => exact ⟨[], (List.append_nil _).symm, List.forall_mem_nil _⟩
  | cons act rest ih =>
      obtain ⟨late, more, refused⟩ := ih (isClosed_step closed act)
      change ((t.step act).run rest).answers = _ at more
      have first : ∃ now, (t.step act).answers = t.answers ++ now ∧
          ∀ answer ∈ now, answer.2 = .error .closed := by
        cases act with
        | publish n =>
            obtain ⟨f, answer, reason⟩ :=
              t.queue.publish_refusing n (by simp [NoticeQueue.isRefusing, closed])
            refine ⟨[(n, .error .closed)], ?_, by simp⟩
            simp only [QueueTraffic.step, answer, reason closed]
        | _ => exact ⟨[], (List.append_nil _).symm, List.forall_mem_nil _⟩
      obtain ⟨now, same, refused'⟩ := first
      refine ⟨now ++ late, ?_, List.forall_mem_append.mpr ⟨refused', refused⟩⟩
      rw [← List.append_assoc, ← same]
      exact more

theorem isClosed_run (closed : t.queue.isClosed = true) (acts : List Act) :
    (t.run acts).queue.isClosed = true := by
  induction acts generalizing t with
  | nil => exact closed
  | cons act rest ih => exact ih (isClosed_step closed act)

theorem exists_run_handOn (accepts : Notice → Bool) (n : Nat) (t : QueueTraffic) :
    ∃ worker : List Act, (∀ act ∈ worker, act = .take ∨ ∃ accepted, act = .deliver accepted) ∧
      (t.run worker).queue = (NoticeQueue.handOn accepts)^[n] t.queue := by
  induction n generalizing t with
  | zero => exact ⟨[], List.forall_mem_nil _, rfl⟩
  | succ n ih =>
      have round : ∃ accepted, (t.run [.take, .deliver accepted]).queue = t.queue.handOn accepts := by
        rcases t.queue.take.deliver_cases accepts with ⟨hand, same⟩ | ⟨m, hand, delivered⟩
        · exact ⟨true, by simp [run, QueueTraffic.step, NoticeQueue.handOn, NoticeQueue.deliver, hand]⟩
        · exact ⟨accepts m,
            by simp [run, QueueTraffic.step, NoticeQueue.handOn, NoticeQueue.deliver, hand]⟩
      obtain ⟨accepted, first⟩ := round
      obtain ⟨worker, works, rest⟩ := ih (t.run [.take, .deliver accepted])
      refine ⟨.take :: .deliver accepted :: worker, ?_, ?_⟩
      · exact List.forall_mem_cons.mpr ⟨.inl rfl, List.forall_mem_cons.mpr ⟨.inr ⟨_, rfl⟩, works⟩⟩
      · rw [first] at rest
        exact rest

theorem exists_run_shutdown (accepts : Notice → Bool) (t : QueueTraffic) :
    ∃ worker : List Act, (∀ act ∈ worker, act = .take ∨ ∃ accepted, act = .deliver accepted) ∧
      (t.run (.close :: worker ++ [.join])).queue = t.queue.shutdown accepts ∧
      (t.run (.close :: worker ++ [.join])).hasReturned = true := by
  obtain ⟨worker, works, rounds⟩ :=
    exists_run_handOn accepts (t.queue.waiting.length + 1) (t.step .close)
  have queue : (t.run (.close :: worker)).queue = t.queue.shutdown accepts :=
    rounds.trans (t.queue.close.drain_eq accepts).symm
  have closed : (t.run (.close :: worker)).queue.isClosed = true :=
    isClosed_run (t := t.step .close) rfl worker
  obtain ⟨waiting, hand⟩ := t.queue.close.drained accepts
  refine ⟨worker, works, by rw [run_append]; exact queue, ?_⟩
  rw [run_append]
  change (_ || NoticeQueue.hasEnded (t.run (.close :: worker)).queue) = true
  rw [NoticeQueue.hasEnded, closed, queue, NoticeQueue.shutdown, waiting, hand]
  simp

def opened (q : NoticeQueue) : QueueTraffic := { queue := q }

theorem sound_opened {capacity : Nat} {q : NoticeQueue}
    (made : NoticeQueue.withCapacity? capacity = some q) : (opened q).Sound (max capacity 1) := by
  unfold NoticeQueue.withCapacity? at made
  split at made
  · cases made
    exact ⟨rfl, rfl, Nat.zero_le _, rfl, fun returned => by cases returned⟩
  · cases made

variable (sound : t.Sound places)
include sound

theorem Sound.handed_prefix : t.queue.handed.map (·.1) <+: t.accepted := by
  rw [← sound.order, NoticeQueue.contents, List.append_assoc]
  exact List.prefix_append _ _

theorem Sound.handed_of_returned (returned : t.hasReturned = true) :
    t.queue.handed.map (·.1) = t.accepted := by
  have ended := sound.returned returned
  obtain ⟨⟨-, waiting⟩, hand⟩ : (t.queue.isClosed = true ∧ t.queue.waiting = []) ∧
      t.queue.inHand = none := by
    simpa [NoticeQueue.hasEnded] using ended
  rw [← sound.order, NoticeQueue.contents, hand, waiting]
  simp

theorem Sound.not_handed {n : Notice} (refused : (n, .ok ()) ∉ t.answers) :
    n ∉ t.queue.handed.map (·.1) := by
  intro handed
  obtain ⟨⟨m, answer⟩, member, accepted⟩ :=
    List.mem_filterMap.mp (sound.handed_prefix.subset handed)
  cases answer with
  | error f => cases accepted
  | ok u =>
      cases accepted
      exact refused member

end QueueTraffic

end RetirementLedger

import RetirementLedger.Proofs.Service

namespace RetirementLedger

namespace RetireCall

theorem steps_done (n : Nat) (reply : Reply Receipt) (s : Service) :
    steps n (.done reply) s = (.done reply, s) := by
  induction n with
  | zero => rfl
  | succ n ih => exact ih

theorem steps_stored (n : Nat) (receipt : Receipt) (s : Service) :
    steps (n + 1) (.stored receipt) s = (.done (.ok receipt), s.announce receipt.record) :=
  steps_done n _ _

def ofReply : Reply Receipt → RetireCall
  | .ok receipt => if receipt.wasNew then .stored receipt else .done (.ok receipt)
  | reply => .done reply

theorem step_checked (r : Retirement) (s : Service) :
    step (.checked r) s = (ofReply (s.insert r).1, (s.insert r).2) := by
  simp only [step]
  rcases s.insert r with ⟨receipt | f | _, after⟩
  · simp only [ofReply]
    split <;> rfl
  · rfl
  · rfl

theorem step_cases (call : RetireCall) (s : Service) :
    (∃ agreementId reason actor, call = .asked agreementId reason actor ∧
        (call.step s).1 = .checked (.create agreementId reason actor s.clock)) ∨
      (∃ receipt, (call.step s).1 = .stored receipt) ∨ ∃ reply, (call.step s).1 = .done reply := by
  cases call with
  | asked agreementId reason actor =>
      simp only [step]
      split
      · exact .inr (.inr ⟨_, rfl⟩)
      · exact .inl ⟨_, _, _, rfl, rfl⟩
  | checked r =>
      right
      rw [step_checked]
      cases (s.insert r).1 with
      | ok receipt =>
          cases new : receipt.wasNew with
          | true => exact .inl ⟨receipt, by simp [ofReply, new]⟩
          | false => exact .inr ⟨.ok receipt, by simp [ofReply, new]⟩
      | failed f => exact .inr ⟨_, rfl⟩
      | crashed => exact .inr ⟨_, rfl⟩
  | stored receipt => exact .inr (.inr ⟨_, rfl⟩)
  | done reply => exact .inr (.inr ⟨_, rfl⟩)

theorem service_step (call : RetireCall) (s : Service) :
    (∃ receipt, call = .stored receipt) ∨
      ∃ holdings, (call.step s).2 = s.withHoldings holdings := by
  cases call with
  | asked agreementId reason actor =>
      refine .inr ⟨s.holdings, ?_⟩
      simp only [step]
      split <;> rfl
  | checked r =>
      right
      rw [step_checked]
      exact Service.exists_withHoldings_insert r
  | stored receipt => exact .inl ⟨receipt, rfl⟩
  | done reply => exact .inr ⟨s.holdings, rfl⟩

def settled (reply : Reply Receipt) (s : Service) : Service :=
  match reply with
  | .ok receipt => if receipt.wasNew then s.announce receipt.record else s
  | _ => s

theorem steps_checked (n : Nat) (r : Retirement) (s : Service) :
    steps (n + 2) (.checked r) s =
      (.done (s.insert r).1, settled (s.insert r).1 (s.insert r).2) := by
  change steps (n + 1) (step (.checked r) s).1 (step (.checked r) s).2 = _
  rw [step_checked]
  rcases s.insert r with ⟨receipt | f | _, after⟩
  · cases new : receipt.wasNew with
    | true => simp only [ofReply, settled, new, if_true, steps_stored]
    | false => simp only [ofReply, settled, new, Bool.false_eq_true, if_false, steps_done]
  · exact steps_done _ _ _
  · exact steps_done _ _ _

theorem finish_checked (r : Retirement) (s : Service) :
    finish (.checked r) s = ((s.insert r).1, settled (s.insert r).1 (s.insert r).2) := by
  unfold finish
  rw [show stepCount = 1 + 2 from rfl, steps_checked]
  rfl

theorem finish_asked (agreementId reason actor : String) (s : Service) :
    finish (.asked agreementId reason actor) s =
      match (Retirement.create agreementId reason actor s.clock).validate with
      | .error f => (.failed f, s)
      | .ok () => finish (.checked (.create agreementId reason actor s.clock)) s := by
  have whole (call : RetireCall) : finish call s =
      ((steps 2 (step call s).1 (step call s).2).1.reply,
        (steps 2 (step call s).1 (step call s).2).2) := rfl
  rw [whole (.asked agreementId reason actor)]
  simp only [step]
  cases (Retirement.create agreementId reason actor s.clock).validate with
  | error f => rfl
  | ok u =>
      rw [finish_checked]
      simp only [steps_checked 0]
      rfl

theorem steps_stepCount (call : RetireCall) (s : Service) :
    steps stepCount call s = (.done (call.finish s).1, (call.finish s).2) := by
  cases call with
  | asked agreementId reason actor =>
      rw [finish_asked]
      change steps 2 (step (.asked agreementId reason actor) s).1 (step (.asked agreementId reason actor) s).2 = _
      simp only [step]
      cases (Retirement.create agreementId reason actor s.clock).validate with
      | error f => rfl
      | ok u =>
          rw [finish_checked]
          exact steps_checked 0 _ s
  | checked r =>
      rw [finish_checked]
      exact steps_checked 1 r s
  | stored receipt => rfl
  | done reply => rfl

end RetireCall

namespace Service

variable {s : Service}

structure Kept (s after : Service) : Prop where
  sound : after.holdings.Sound
  records : ∀ id r, s.holdings.record? id = some r → after.holdings.record? id = some r
  clock : after.clock = s.clock
  faults : after.store.faults = s.store.faults
  kind : after.holdings.isDatabase = s.holdings.isDatabase

theorem Kept.refl (sound : s.holdings.Sound) : Kept s s :=
  ⟨sound, fun _ _ held => held, rfl, rfl, rfl⟩

theorem Kept.trans {t u : Service} (first : Kept s t) (second : Kept t u) : Kept s u where
  sound := second.sound
  records id r held := second.records id r (first.records id r held)
  clock := second.clock.trans first.clock
  faults := second.faults.trans first.faults
  kind := second.kind.trans first.kind

theorem Kept.announce {after : Service} (kept : Kept s after) (r : Retirement) :
    Kept s (after.announce r) := by
  unfold Service.announce
  split <;> exact ⟨kept.sound, kept.records, kept.clock, kept.faults, kept.kind⟩

theorem Kept.insertion {r : Retirement} {receipt : Receipt} {after : Store}
    (insertion : Store.Insertion s.holdings r (.ok receipt) after) (sound : after.Sound) :
    Kept s (s.withHoldings after) :=
  ⟨sound, fun _ _ held => insertion.keeps held, rfl, rfl, insertion.kind⟩

theorem Kept.settled {after : Service} (kept : Kept s after) (reply : Reply Receipt) :
    Kept s (RetireCall.settled reply after) := by
  unfold RetireCall.settled
  split
  · split
    · exact kept.announce _
    · exact kept
  · exact kept

@[simp] theorem holdings_settled (reply : Reply Receipt) :
    (RetireCall.settled reply s).holdings = s.holdings := by
  unfold RetireCall.settled
  split
  · split
    · exact holdings_announce _
    · rfl
  · rfl

theorem retire_eq (agreementId reason actor : String) :
    s.retire agreementId reason actor =
      match (Retirement.create agreementId reason actor s.clock).validate with
      | .error f => (.failed f, s)
      | .ok () =>
        ((s.insert (.create agreementId reason actor s.clock)).1,
          RetireCall.settled (s.insert (.create agreementId reason actor s.clock)).1
            (s.insert (.create agreementId reason actor s.clock)).2) := by
  rw [retire, RetireCall.finish_asked]
  simp only [RetireCall.finish_checked]

/-- A whole call that is not answered changes nothing, and any other has had one insertion answered. -/
theorem retire_cases (sound : s.holdings.Sound) (agreementId reason actor : String) :
    (∃ reply, reply.receipt? = none ∧ s.retire agreementId reason actor = (reply, s)) ∨
      ∃ receipt after,
        Store.Insertion s.holdings (.create agreementId reason actor s.clock) (.ok receipt) after ∧
        after.Sound ∧
        s.retire agreementId reason actor =
          (.ok receipt, RetireCall.settled (.ok receipt) (s.withHoldings after)) := by
  rw [retire_eq]
  cases (Retirement.create agreementId reason actor s.clock).validate with
  | error f => exact .inl ⟨.failed f, rfl, rfl⟩
  | ok u =>
      dsimp only
      rcases insert_cases sound (.create agreementId reason actor s.clock) with
        ⟨reply, failure, answer⟩ | ⟨receipt, after, insertion, sound', answer⟩
      · refine .inl ⟨reply, failure, ?_⟩
        rw [answer]
        cases reply with
        | ok receipt => cases failure
        | failed f => rfl
        | crashed => rfl
      · exact .inr ⟨receipt, after, insertion, sound', by rw [answer]⟩

end Service

end RetirementLedger

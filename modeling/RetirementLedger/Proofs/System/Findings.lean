import Mathlib.Data.List.Induction
import RetirementLedger.Proofs.Instant
import RetirementLedger.Proofs.Monitor.Entries
import RetirementLedger.Proofs.System.Transitions
import RetirementLedger.Proofs.System.Watch

namespace RetirementLedger

structure Finding where
  agreement : Agreement
  constraint : Constraint
  violation : Violation
  instant : Instant

theorem Agreement.firstViolation?_eq_some {a : Agreement} {now : Instant} {c : Constraint}
    {v : Violation} (found : a.firstViolation? now = some (c, v)) :
    ∃ earlier later, a.constraints = earlier ++ c :: later ∧
      (∀ e ∈ earlier, e.judge now = .satisfied) ∧ c.judge now = .violated v := by
  obtain ⟨earlier, e, later, split, here, before⟩ := List.findSome?_eq_some_iff.mp found
  have satisfied (e : Constraint) (member : e ∈ earlier) : e.judge now = .satisfied := by
    have none := before e member
    cases verdict : e.judge now with
    | satisfied => rfl
    | violated violation => simp [verdict, Verdict.violation?] at none
  cases verdict : e.judge now with
  | satisfied => simp [verdict, Verdict.violation?] at here
  | violated violation =>
      simp only [verdict, Verdict.violation?, Option.map_some] at here
      cases here
      exact ⟨earlier, later, split, satisfied, verdict⟩

namespace Finding

structure IsFirstViolation (finding : Finding) : Prop where
  active : finding.agreement.status ≠ .terminated
  first : ∃ earlier later, finding.agreement.constraints = earlier ++ finding.constraint :: later ∧
    ∀ c ∈ earlier, c.judge finding.instant = .satisfied
  violated : finding.constraint.judge finding.instant = .violated finding.violation

def call (finding : Finding) : RetireCall :=
  .asked finding.agreement.agreementId
    (ReasonCode.violationReason finding.constraint.constraintId) monitorActor

def entry (finding : Finding) : WatchEntry where
  agreementId := finding.agreement.agreementId
  status := finding.agreement.status
  state := .violated
  constraintId := some finding.constraint.constraintId
  violation := some finding.violation
  lastEvaluatedAt := finding.instant

/-- The record is that of the agreement, tells the cause, and is of this instant. -/
structure IsRecordedAs (finding : Finding) (r : Retirement) (instant : Instant) : Prop where
  agreementId : r.agreementId = finding.agreement.agreementId
  reason : r.reason = "POLICY_VIOLATION:" ++ finding.constraint.constraintId
  retiredBy : r.retiredBy = "policy-monitor"
  retiredAt : r.retiredAt.nanos = instant.nanos / 1000000 * 1000000

theorem isRecordedAs_of_kept {finding : Finding} {instant : Instant} {s : Store} {r : Retirement}
    (kept : s.kept (.create finding.agreement.agreementId
      (ReasonCode.violationReason finding.constraint.constraintId) monitorActor instant) = .ok r) :
    finding.IsRecordedAs r instant := by
  cases s with
  | memory ledger =>
      cases kept
      exact ⟨rfl, rfl, rfl, instant.truncateToMillis_spec.1⟩
  | database db =>
      obtain ⟨id, reason, actor⟩ := Row.toRetirement_eq_ok kept
      refine ⟨id, reason, actor, ?_⟩
      simp only [Store.kept, Row.toRetirement] at kept
      split at kept
      · next t read =>
          cases kept
          exact Instant.ofUnixMillis?_truncateToMillis read
      · cases kept

end Finding

namespace RetireCall

variable {call : RetireCall} {s : Service}

theorem step_ne_asked (agreementId reason actor : String) :
    (call.step s).1 ≠ .asked agreementId reason actor := by
  rcases call.step_cases s with ⟨_, _, _, -, next⟩ | ⟨_, next⟩ | ⟨_, next⟩ <;>
    simp [next]

theorem created_of_step {r : Retirement} (checked : (call.step s).1 = .checked r) :
    ∃ agreementId reason actor, call = .asked agreementId reason actor ∧
      r = .create agreementId reason actor s.clock := by
  rcases call.step_cases s with ⟨_, _, _, asked, next⟩ | ⟨_, next⟩ | ⟨_, next⟩
  · cases next.symm.trans checked
    exact ⟨_, _, _, asked, rfl⟩
  · cases next.symm.trans checked
  · cases next.symm.trans checked

end RetireCall

namespace Traffic

variable {t : Traffic} {place : Nat}

theorem exists_of_advance {call : RetireCall} (here : (t.advance place).calls[place]? = some call) :
    ∃ before, t.calls[place]? = some before ∧ (before.step t.service).1 = call := by
  unfold advance at here
  cases known : t.calls[place]? with
  | none => simp [known] at here
  | some before =>
      have bound := (List.getElem?_eq_some_iff.mp known).1
      rw [known] at here
      exact ⟨before, rfl, by simpa [bound] using here⟩

theorem checked_of_added (sound : t.store.Sound) {id : String} {added : Retirement}
    (free : t.store.record? id = none)
    (held : (t.advance place).store.record? id = some added) :
    ∃ r, t.calls[place]? = some (.checked r) ∧ id = r.agreementId ∧
      t.store.kept r = .ok added := by
  -- After a step that inserts nothing the agreement would still be free.
  have unmoved {service : Service} (same : service.holdings = t.store)
      (held : service.holdings.record? id = some added) : False := by
    rw [same, free] at held
    cases held
  unfold advance at held
  cases here : t.calls[place]? with
  | none =>
      rw [here] at held
      exact (unmoved rfl held).elim
  | some call =>
  rw [here] at held
  cases call with
  | asked agreementId reason actor =>
      simp only [RetireCall.step] at held
      split at held
      · exact (unmoved rfl held).elim
      · exact (unmoved rfl held).elim
  | stored receipt => exact (unmoved (Service.holdings_announce _) held).elim
  | done reply => exact (unmoved rfl held).elim
  | checked r =>
      change (RetireCall.step (.checked r) t.service).2.holdings.record? id = some added at held
      rw [RetireCall.step_checked] at held
      rcases Service.insert_cases sound r with
        ⟨reply, failure, answer⟩ | ⟨receipt, after, insertion, sound', answer⟩
      · rw [answer] at held
        exact (unmoved rfl held).elim
      · rw [answer] at held
        change after.record? id = some added at held
        cases insertion with
        | known accepted known => exact (unmoved rfl held).elim
        | made accepted unheld kept content kind =>
            rw [content] at held
            split at held
            · next same =>
                cases held
                exact ⟨r, rfl, same, kept⟩
            · exact (unmoved rfl held).elim

end Traffic

namespace System

variable {s after : System} {act : Act}

theorem Transition.exists_finding (transition : s.Transition .proceed after)
    (asked : s.calls.length < after.calls.length) :
    ∃ (finding : Finding) (p : ScanProgress) (rest : List Agreement),
      s.scan = some (.visiting p (finding.agreement :: rest)) ∧ p.stopped = false ∧
        finding.IsFirstViolation ∧ finding.instant = s.service.clock ∧
        after.monitor.watch.find? finding.agreement.agreementId = some finding.entry ∧
        after.calls = s.calls ++ [finding.call] := by
  cases transition with
  | idle notHanded => exact absurd asked (Nat.lt_irrefl _)
  | ended phase => exact absurd asked (Nat.lt_irrefl _)
  | cancelled phase stopRequested => exact absurd asked (Nat.lt_irrefl _)
  | passed phase going examined => exact absurd asked (Nat.lt_irrefl _)
  | @begunCall p a rest next constraintId phase going examined =>
      cases examined with
      | @violated c v monitored active found =>
          obtain ⟨earlier, later, split, satisfied, violated⟩ :=
            Agreement.firstViolation?_eq_some found
          have active : a.status ≠ .terminated := by
            intro terminated
            rw [terminated] at monitored
            cases monitored
          refine ⟨⟨a, c, v, s.service.clock⟩, p, rest, phase, going,
            ⟨active, ⟨earlier, later, split, satisfied⟩, violated⟩, rfl, ?_, ?_⟩
          · change (s.monitor.watch.record a (some (c, v)) s.service.clock).find? _ = _
            rw [WatchTable.find?_record, if_pos rfl]
            rfl
          · rfl

theorem getElem?_calls_step {place : Nat} (bound : place < s.calls.length)
    (other : act ≠ .traffic (.advance place)) : (s.step act).calls[place]? = s.calls[place]? := by
  by_cases advance : ∃ place, act = .traffic (.advance place)
  · obtain ⟨elsewhere, rfl⟩ := advance
    have differs : elsewhere ≠ place := fun same => other (same ▸ rfl)
    change (s.toTraffic.advance elsewhere).calls[place]? = _
    unfold Traffic.advance
    split
    · rfl
    · exact List.getElem?_set_ne differs
  · obtain ⟨begun, calls, -⟩ := step_calls (s := s) fun place same => advance ⟨place, same⟩
    rw [calls, List.getElem?_append_left bound]

variable {place : Nat} {agreementId reason actor : String} {acts : List Act}

theorem asked_of_run (bound : place < s.calls.length)
    (unread : (s.run acts).calls[place]? = some (.asked agreementId reason actor)) :
    s.calls[place]? = some (.asked agreementId reason actor) := by
  induction acts using List.reverseRecOn with
  | nil => exact unread
  | append_singleton earlier act ih =>
      rw [run_concat] at unread
      have bound' : place < (s.run earlier).calls.length := Nat.lt_of_lt_of_le bound (run_calls_grow earlier)
      by_cases own : act = .traffic (.advance place)
      · subst own
        obtain ⟨call, -, step⟩ := Traffic.exists_of_advance unread
        exact absurd step (RetireCall.step_ne_asked _ _ _)
      · rw [getElem?_calls_step bound' own] at unread
        exact ih unread

/-- What a call is about to insert, it has made out at one of the acts since it was begun, by the clock
of that time. -/
theorem exists_reading {r : Retirement}
    (begun : s.calls[place]? = some (.asked agreementId reason actor))
    (checked : (s.run acts).calls[place]? = some (.checked r)) :
    ∃ earlier later, acts = earlier ++ .traffic (.advance place) :: later ∧
      (s.run earlier).calls[place]? = some (.asked agreementId reason actor) ∧
      r = .create agreementId reason actor (s.run earlier).service.clock := by
  have bound := (List.getElem?_eq_some_iff.mp begun).1
  induction acts using List.reverseRecOn with
  | nil => cases begun.symm.trans checked
  | append_singleton earlier act ih =>
      rw [run_concat] at checked
      have bound' : place < (s.run earlier).calls.length := Nat.lt_of_lt_of_le bound (run_calls_grow earlier)
      by_cases own : act = .traffic (.advance place)
      · subst own
        obtain ⟨call, here, step⟩ := Traffic.exists_of_advance checked
        obtain ⟨id, other, by_, rfl, made⟩ := RetireCall.created_of_step step
        cases begun.symm.trans (asked_of_run bound here)
        exact ⟨earlier, [], rfl, here, made⟩
      · rw [getElem?_calls_step bound' own] at checked
        obtain ⟨before, after, rfl, read, made⟩ := ih checked
        exact ⟨before, after ++ [act], by simp, read, made⟩

end System

end RetirementLedger

import RetirementLedger.Proofs.Monitor.Watch

namespace RetirementLedger

namespace Agreement

def IsViolated (a : Agreement) (now : Instant) : Prop :=
  ∃ c ∈ a.constraints, (c.judge now).violation?.isSome = true

theorem firstViolation?_isSome {a : Agreement} {now : Instant} :
    (a.firstViolation? now).isSome = true ↔ a.IsViolated now := by
  unfold firstViolation? IsViolated
  simp [List.findSome?_isSome_iff]

end Agreement

namespace Attempt

variable {s : Service}

theorem make_spec (sound : s.holdings.Sound) (agreementId constraintId : String) :
    Service.Kept s (make s agreementId constraintId).2.2 ∧
      ∀ config receipt, (make s agreementId constraintId).1.result config = .ok receipt →
        ((make s agreementId constraintId).2.2.holdings.record? agreementId).isSome = true := by
  rcases make_cases s agreementId constraintId with ⟨stops, made⟩ | ⟨stops, valid, stalls, made⟩
  · rw [made]
    rcases Service.retire_cases sound agreementId (ReasonCode.violationReason constraintId)
      monitorActor with ⟨reply, failure, retired⟩ | ⟨receipt, after, insertion, sound', retired⟩
    · rw [retired]
      refine ⟨.refl sound, fun config receipt result => ?_⟩
      cases reply with
      | ok receipt => cases failure
      | failed f => cases result
      | crashed => cases result
    · rw [retired]
      have kept := (Service.Kept.insertion insertion sound').settled (.ok receipt)
      refine ⟨kept, fun config other result => ?_⟩
      have held := insertion.holds sound
      unfold Store.Holds at held
      rw [insertion.agreementId sound] at held
      rw [Service.holdings_settled]
      exact Option.isSome_iff_exists.mpr ⟨_, held⟩
  · rw [made]
    exact ⟨.refl sound, fun config receipt result => by cases result⟩

end Attempt

namespace Scan

def attempt? (sc : Scan) (a : Agreement) : Option (Except Failure Receipt) :=
  match sc.examine a with
  | (_, none) => none
  | (next, some constraintId) =>
    some ((Attempt.make next.service a.agreementId constraintId).1.result next.monitor.config)

def visits (signal : Nat → Bool) :
    Nat → Scan → List Agreement → List (Agreement × Option (Except Failure Receipt))
  | _, _, [] => []
  | place, sc, a :: rest =>
    if sc.stopped then []
    else
      (a, sc.attempt? a) :: visits signal (place + 1)
        { sc.visit a with stopped := (sc.visit a).stopped || signal place } rest

def isFailure (visit : Agreement × Option (Except Failure Receipt)) : Bool :=
  match visit.2 with
  | some (.error _) => true
  | _ => false

/-- The store is sound, and the monitor takes no agreement for retired that has no record. -/
structure Faithful (sc : Scan) : Prop where
  sound : sc.service.holdings.Sound
  retired : ∀ id, sc.monitor.watch.isRetired id = true →
    (sc.service.holdings.record? id).isSome = true

variable {sc : Scan}

inductive Visited (sc : Scan) (a : Agreement) : Scan → Option (Except Failure Receipt) → Prop
  | passed {next : Scan} (examined : sc.Examined a next none) : Visited sc a next none
  | begunCall {next : Scan} {constraintId : String} {attempt : Attempt} {stops : Bool}
      {service : Service} (examined : sc.Examined a next (some constraintId))
      (made : Attempt.make sc.service a.agreementId constraintId = (attempt, stops, service)) :
      Visited sc a
        ((conclude { next with service, stopped := next.stopped || stops } a.agreementId
          (attempt.result next.monitor.config)).withPending (next.pending ++ attempt.pending))
        (some (attempt.result next.monitor.config))

theorem visited (sc : Scan) (a : Agreement) : sc.Visited a (sc.visit a) (sc.attempt? a) := by
  have examined := sc.examined a
  unfold visit attempt?
  revert examined
  rcases sc.examine a with ⟨next, _ | constraintId⟩ <;> intro examined
  · exact .passed examined
  · have service : next.service = sc.service := examined.frame.1
    rcases made : Attempt.make sc.service a.agreementId constraintId with ⟨attempt, stops, after⟩
    dsimp only
    rw [retireViolator_eq next (service ▸ made), service, made]
    exact .begunCall examined made

variable {a : Agreement} {next : Scan} {attempt : Option (Except Failure Receipt)}

theorem Visited.kept (visited : sc.Visited a next attempt) (sound : sc.service.holdings.Sound) :
    Service.Kept sc.service next.service := by
  cases visited with
  | passed examined =>
      rw [examined.frame.1]
      exact .refl sound
  | @begunCall next constraintId attempt stops after examined made =>
      have kept := (Attempt.make_spec sound a.agreementId constraintId).1
      rw [made] at kept
      change Service.Kept _ (conclude _ _ _).service
      rw [(conclude_frame _ _ _).1]
      exact kept

theorem keeps_isSome {s after : Service} (kept : Service.Kept s after) {id : String}
    (held : (s.holdings.record? id).isSome = true) : (after.holdings.record? id).isSome = true := by
  obtain ⟨r, held⟩ := Option.isSome_iff_exists.mp held
  exact Option.isSome_iff_exists.mpr ⟨r, kept.records id r held⟩

theorem Visited.isSome_of_ok (visited : sc.Visited a next attempt)
    (sound : sc.service.holdings.Sound) (receipt : Receipt) (worked : attempt = some (.ok receipt)) :
    (next.service.holdings.record? a.agreementId).isSome = true := by
  cases visited with
  | passed examined => cases worked
  | @begunCall next constraintId attempt stops after examined made =>
      have recorded := (Attempt.make_spec sound a.agreementId constraintId).2
      rw [made] at recorded
      change ((conclude _ _ _).service.holdings.record? _).isSome = true
      rw [(conclude_frame _ _ _).1]
      exact recorded _ receipt (Option.some.inj worked)

theorem Visited.faithful (visited : sc.Visited a next attempt) (faithful : sc.Faithful) :
    next.Faithful := by
  have kept := visited.kept faithful.sound
  refine ⟨kept.sound, fun id retired => ?_⟩
  have recorded := visited.isSome_of_ok faithful.sound
  cases visited with
  | passed examined => exact keeps_isSome kept (faithful.retired id (examined.isRetired retired))
  | begunCall examined made =>
      rcases conclude_isRetired retired with before | ⟨rfl, receipt, result⟩
      · exact keeps_isSome kept (faithful.retired id (examined.isRetired before))
      · exact recorded receipt (congrArg some result)

theorem Visited.report (visited : sc.Visited a next attempt) :
    next.report.failures = sc.report.failures + (isFailure (a, attempt)).toNat ∧
      next.report.cancelled = sc.report.cancelled := by
  cases visited with
  | passed examined =>
      obtain ⟨-, -, -, -, failures, cancelled⟩ := examined.frame
      exact ⟨failures, cancelled⟩
  | @begunCall next constraintId attempt stops after examined made =>
      obtain ⟨-, -, -, -, failures, cancelled⟩ := examined.frame
      constructor
      · cases attempt.result next.monitor.config with
        | error f =>
            change next.report.failures + 1 = _
            rw [failures]
            rfl
        | ok receipt =>
            rw [← failures]
            cases new : receipt.wasNew <;>
              simp [withPending, conclude, mapReport, mapWatch, isFailure, new]
      · rw [← cancelled]
        exact (conclude_frame _ _ _).2.2.2

theorem Visited.covers (visited : sc.Visited a next attempt) (faithful : sc.Faithful)
    (monitored : a.status.isMonitored = true) (violated : a.IsViolated sc.service.clock) :
    (next.service.holdings.record? a.agreementId).isSome = true ∨
      ∃ f, attempt = some (.error f) := by
  have kept := visited.kept faithful.sound
  have recorded := visited.isSome_of_ok faithful.sound
  cases visited with
  | passed examined =>
      left
      cases examined with
      | terminated unmonitored => simp [monitored] at unmonitored
      | retired monitored known => exact keeps_isSome kept (faithful.retired _ known)
      | satisfied monitored active found =>
          rw [← Agreement.firstViolation?_isSome, found] at violated
          cases violated
  | @begunCall next constraintId attempt stops after examined made =>
      cases result : attempt.result next.monitor.config with
      | error f => exact .inr ⟨f, rfl⟩
      | ok receipt =>
          rw [result] at recorded
          exact .inl (recorded receipt rfl)

variable (signal : Nat → Bool)

def after (sc : Scan) (a : Agreement) (stopRequested : Bool) : Scan :=
  { sc.visit a with stopped := (sc.visit a).stopped || stopRequested }

theorem visitAll_going {place : Nat} {rest : List Agreement} (going : sc.stopped = false) :
    sc.visitAll signal place (a :: rest) =
      (sc.after a (signal place)).visitAll signal (place + 1) rest := by
  simp only [visitAll, going, Bool.false_eq_true, if_false]
  rfl

theorem visitAll_stopRequested {place : Nat} {rest : List Agreement} (stopRequested : sc.stopped = true) :
    sc.visitAll signal place (a :: rest) = sc.mapReport fun r => { r with cancelled := true } := by
  simp only [visitAll, stopRequested, if_true]

theorem visits_going {place : Nat} {rest : List Agreement} (going : sc.stopped = false) :
    sc.visits signal place (a :: rest) =
      (a, sc.attempt? a) :: (sc.after a (signal place)).visits signal (place + 1) rest := by
  simp only [visits, going, Bool.false_eq_true, if_false]
  rfl

theorem visits_stopRequested {place : Nat} {rest : List Agreement} (stopRequested : sc.stopped = true) :
    sc.visits signal place (a :: rest) = [] := by
  simp only [visits, stopRequested, if_true]

theorem Faithful.after (faithful : sc.Faithful) (a : Agreement) (stopRequested : Bool) :
    (sc.after a stopRequested).Faithful :=
  let visited := (sc.visited a).faithful faithful
  ⟨visited.sound, visited.retired⟩

theorem visitAll_kept (faithful : sc.Faithful) (place : Nat) (agreements : List Agreement) :
    Service.Kept sc.service (sc.visitAll signal place agreements).service := by
  induction agreements generalizing sc place with
  | nil => exact .refl faithful.sound
  | cons a rest ih =>
      cases stopRequested : sc.stopped with
      | true =>
          rw [visitAll_stopRequested signal stopRequested]
          exact .refl faithful.sound
      | false =>
          rw [visitAll_going signal stopRequested]
          exact ((sc.visited a).kept faithful.sound).trans (ih (faithful.after a _) (place + 1))

theorem visitAll_failures (place : Nat) (agreements : List Agreement) :
    (sc.visitAll signal place agreements).report.failures =
      sc.report.failures + (sc.visits signal place agreements).countP isFailure := by
  induction agreements generalizing sc place with
  | nil => rfl
  | cons a rest ih =>
      cases stopRequested : sc.stopped with
      | true =>
          rw [visitAll_stopRequested signal stopRequested, visits_stopRequested signal stopRequested]
          rfl
      | false =>
          have here := (sc.visited a).report.1
          have others := @ih (sc.after a (signal place)) (place + 1)
          have counted : (sc.after a (signal place)).report.failures = (sc.visit a).report.failures :=
            rfl
          rw [visitAll_going signal stopRequested, visits_going signal stopRequested, others, counted, here,
            List.countP_cons]
          cases isFailure (a, sc.attempt? a) with
          | true =>
              simp
              omega
          | false => simp

theorem visits_whole (place : Nat) (agreements : List Agreement)
    (whole : (sc.visitAll signal place agreements).report.cancelled = false) :
    (sc.visits signal place agreements).map (·.1) = agreements := by
  induction agreements generalizing sc place with
  | nil => rfl
  | cons a rest ih =>
      cases stopRequested : sc.stopped with
      | true =>
          rw [visitAll_stopRequested signal stopRequested] at whole
          cases whole
      | false =>
          rw [visitAll_going signal stopRequested] at whole
          rw [visits_going signal stopRequested, List.map_cons, ih (place + 1) whole]

theorem visitAll_covers (faithful : sc.Faithful) (place : Nat) (agreements : List Agreement)
    {i : Nat} {attempt : Option (Except Failure Receipt)}
    (visit : (sc.visits signal place agreements)[i]? = some (a, attempt))
    (monitored : a.status.isMonitored = true) (violated : a.IsViolated sc.service.clock) :
    ((sc.visitAll signal place agreements).service.holdings.record? a.agreementId).isSome = true ∨
      ∃ f, attempt = some (.error f) := by
  induction agreements generalizing sc place i with
  | nil => cases visit
  | cons first rest ih =>
      cases stopRequested : sc.stopped with
      | true =>
          rw [visits_stopRequested signal stopRequested] at visit
          cases visit
      | false =>
          rw [visits_going signal stopRequested] at visit
          rw [visitAll_going signal stopRequested]
          have faithful' := faithful.after first (signal place)
          have clock : (sc.after first (signal place)).service.clock = sc.service.clock :=
            ((sc.visited first).kept faithful.sound).clock
          -- Later visits keep what this one has stored, and find the clock where it was.
          cases i with
          | zero =>
              cases visit
              rcases (sc.visited a).covers faithful monitored violated with held | failed
              · exact .inl (keeps_isSome (visitAll_kept signal faithful' (place + 1) rest) held)
              · exact .inr failed
          | succ i => exact ih faithful' (place + 1) visit (clock.symm ▸ violated)

end Scan

end RetirementLedger

import RetirementLedger.Monitor.Scan
import RetirementLedger.Proofs.Traffic.Whole

namespace RetirementLedger

namespace Attempt

def record (s : Service) (agreementId constraintId : String) : Retirement :=
  .create agreementId (ReasonCode.violationReason constraintId) monitorActor s.clock

theorem make_eq (s : Service) (agreementId constraintId : String) :
    make s agreementId constraintId =
      match (record s agreementId constraintId).validate with
      | .error f => (.answered (.failed f), false, s)
      | .ok () =>
        match s.store.insertFault agreementId with
        | some reply => (.answered reply, false, s)
        | none =>
          if s.store.faults.stall agreementId then
            (.stalled (.checked (record s agreementId constraintId)),
              s.store.faults.cancel agreementId, s)
          else
            (.answered ((RetireCall.checked (record s agreementId constraintId)).finish s).1,
              s.store.faults.cancel agreementId,
              ((RetireCall.checked (record s agreementId constraintId)).finish s).2) := by
  unfold make record
  simp only [RetireCall.step]
  cases (Retirement.create agreementId (ReasonCode.violationReason constraintId) monitorActor
    s.clock).validate with
  | error f => rfl
  | ok u => rfl

/-- An attempt goes through as a whole call or stalls once the call has been checked. -/
theorem make_cases (s : Service) (agreementId constraintId : String) :
    (∃ stops, make s agreementId constraintId =
      (.answered (s.retire agreementId (ReasonCode.violationReason constraintId) monitorActor).1,
        stops,
        (s.retire agreementId (ReasonCode.violationReason constraintId) monitorActor).2)) ∨
      ∃ stops, (record s agreementId constraintId).validate = .ok () ∧
        s.store.faults.stall agreementId = true ∧
        make s agreementId constraintId =
          (.stalled (.checked (record s agreementId constraintId)), stops, s) := by
  rw [Service.retire, RetireCall.finish_asked, make_eq, ← record]
  cases valid : (record s agreementId constraintId).validate with
  | error f => exact .inl ⟨_, rfl⟩
  | ok u =>
      cases struck : s.store.insertFault agreementId with
      | some reply =>
          have answer : s.insert (record s agreementId constraintId) = (reply, s) := by
            have struck' : s.store.insertFault (record s agreementId constraintId).agreementId =
                some reply := struck
            unfold Service.insert FaultyStore.insert
            rw [struck']
          have silent : RetireCall.settled reply s = s := by
            unfold FaultyStore.insertFault at struck
            split at struck
            · cases struck
              rfl
            · obtain ⟨f, -, rfl⟩ := Option.map_eq_some_iff.mp struck
              rfl
          refine .inl ⟨false, ?_⟩
          simp only [RetireCall.finish_checked, answer, silent]
      | none =>
          cases stalls : s.store.faults.stall agreementId with
          | true => exact .inr ⟨_, rfl, rfl, rfl⟩
          | false => exact .inl ⟨_, rfl⟩

end Attempt

namespace Scan

variable (sc : Scan)

def noting (a : Agreement) : Scan := { sc with listedIds := a.agreementId :: sc.listedIds }

def evaluating (a : Agreement) (found : Option (Constraint × Violation)) : Scan :=
  (sc.mapWatch (·.record a found sc.service.clock)).mapReport fun r =>
    { r with evaluated := r.evaluated + 1 }

inductive Examined (a : Agreement) : Scan → Option String → Prop
  | terminated (unmonitored : a.status.isMonitored = false) :
      Examined a ((sc.noting a).dismiss a.agreementId) none
  | retired (monitored : a.status.isMonitored = true)
      (known : sc.monitor.watch.isRetired a.agreementId = true) : Examined a (sc.noting a) none
  | satisfied (monitored : a.status.isMonitored = true)
      (active : sc.monitor.watch.isRetired a.agreementId = false)
      (found : a.firstViolation? sc.service.clock = none) :
      Examined a ((sc.noting a).evaluating a none) none
  | violated {c : Constraint} {v : Violation} (monitored : a.status.isMonitored = true)
      (active : sc.monitor.watch.isRetired a.agreementId = false)
      (found : a.firstViolation? sc.service.clock = some (c, v)) :
      Examined a
        (((sc.noting a).evaluating a (some (c, v))).mapReport fun r =>
          { r with violations := r.violations + 1 })
        (some c.constraintId)

theorem examined (a : Agreement) : sc.Examined a (sc.examine a).1 (sc.examine a).2 := by
  cases monitored : a.status.isMonitored with
  | false =>
      have result : sc.examine a = ((sc.noting a).dismiss a.agreementId, none) := by
        simp [examine, noting, monitored]
      rw [result]
      exact .terminated monitored
  | true =>
      cases known : sc.monitor.watch.isRetired a.agreementId with
      | true =>
          have result : sc.examine a = (sc.noting a, none) := by
            simp [examine, noting, monitored, known]
          rw [result]
          exact .retired monitored known
      | false =>
          have result : sc.examine a = (sc.noting a).judge a := by
            simp [examine, noting, monitored, known]
          rw [result]
          unfold judge
          dsimp only
          cases found : a.firstViolation? (sc.noting a).service.clock with
          | none => exact .satisfied monitored known found
          | some pair => exact .violated monitored known found

variable {sc} {a : Agreement} {next : Scan} {constraintId : Option String}

theorem Examined.frame (examined : sc.Examined a next constraintId) :
    next.service = sc.service ∧ next.stopped = sc.stopped ∧ next.pending = sc.pending ∧
      next.monitor.config = sc.monitor.config ∧ next.report.failures = sc.report.failures ∧
      next.report.cancelled = sc.report.cancelled := by
  cases examined <;> exact ⟨rfl, rfl, rfl, rfl, rfl, rfl⟩

theorem Examined.listedIds (examined : sc.Examined a next constraintId) :
    next.listedIds = a.agreementId :: sc.listedIds := by
  cases examined <;> rfl

theorem Examined.listed (examined : sc.Examined a next constraintId) :
    next.report.listed = sc.report.listed := by
  cases examined <;> rfl

theorem Examined.retired_eq (examined : sc.Examined a next constraintId) :
    next.report.retired = sc.report.retired := by
  cases examined <;> rfl

theorem Examined.monitor (examined : sc.Examined a next constraintId) :
    next.monitor = { sc.monitor with watch := next.monitor.watch } := by
  cases examined <;> rfl

variable (sc)

theorem conclude_listedIds (agreementId : String) (result : Except Failure Receipt) :
    (sc.conclude agreementId result).listedIds = sc.listedIds := by
  cases result <;> rfl

theorem conclude_listed (agreementId : String) (result : Except Failure Receipt) :
    (sc.conclude agreementId result).report.listed = sc.report.listed := by
  cases result with
  | error f => rfl
  | ok receipt => cases new : receipt.wasNew <;> simp [conclude, mapReport, mapWatch, new]

def withPending (pending : List RetireCall) : Scan := { sc with pending }

theorem examine_withPending (pending : List RetireCall) (a : Agreement) :
    (sc.withPending pending).examine a =
      ((sc.examine a).1.withPending pending, (sc.examine a).2) := by
  cases monitored : a.status.isMonitored with
  | false =>
      simp only [examine, withPending, monitored]
      rfl
  | true =>
      cases known : sc.monitor.watch.isRetired a.agreementId with
      | true => simp [examine, withPending, monitored, known]
      | false =>
          cases found : a.firstViolation? sc.service.clock <;>
            simp [examine, withPending, monitored, known, judge, found, mapWatch, mapReport]

theorem conclude_withPending (pending : List RetireCall) (agreementId : String)
    (result : Except Failure Receipt) :
    (sc.withPending pending).conclude agreementId result =
      (sc.conclude agreementId result).withPending pending := by
  cases result <;> rfl

theorem prune_withPending (pending : List RetireCall) :
    (sc.withPending pending).prune = sc.prune.withPending pending := by
  cases cancelled : sc.report.cancelled <;> simp [prune, withPending, cancelled, mapWatch, mapReport]

theorem conclude_frame (agreementId : String) (result : Except Failure Receipt) :
    (sc.conclude agreementId result).service = sc.service ∧
      (sc.conclude agreementId result).stopped = sc.stopped ∧
      (sc.conclude agreementId result).pending = sc.pending ∧
      (sc.conclude agreementId result).report.cancelled = sc.report.cancelled := by
  cases result with
  | error f => exact ⟨rfl, rfl, rfl, rfl⟩
  | ok receipt =>
      refine ⟨rfl, rfl, rfl, ?_⟩
      cases new : receipt.wasNew <;> simp [conclude, mapReport, mapWatch, new]

theorem retireViolator_eq {agreementId constraintId : String} {attempt : Attempt} {stops : Bool}
    {service : Service}
    (made : Attempt.make sc.service agreementId constraintId = (attempt, stops, service)) :
    sc.retireViolator agreementId constraintId =
      withPending (conclude { sc with service, stopped := sc.stopped || stops } agreementId
        (attempt.result sc.monitor.config)) (sc.pending ++ attempt.pending) := by
  rw [← conclude_withPending]
  unfold retireViolator
  rw [made]
  rfl

theorem prune_close_frame :
    sc.prune.close.service = sc.service ∧ sc.prune.close.pending = sc.pending ∧
      sc.prune.close.report.failures = sc.report.failures ∧
      sc.prune.close.report.cancelled = sc.report.cancelled := by
  cases cancelled : sc.report.cancelled <;>
    simp [prune, close, cancelled, mapWatch, mapReport]

def start (m : Monitor) (s : Service) (listed : Nat) (early : Bool) : Scan :=
  { monitor := { m with busy := true }
    service := s
    stopped := early
    report := { startedAt := some s.clock, listed } }

end Scan

namespace Monitor

variable {m : Monitor} (s : Service)

theorem scan_busy (busy : m.busy = true) (listing : Listing) (signal : StopSignal) :
    m.scan s listing signal = { outcome := .ok .skippedBusy, monitor := m.skip, service := s } := by
  simp [scan, enter, busy]

theorem scan_failed (free : m.busy = false) {listing : Listing} {f : Failure}
    (failed : listing.result m.config = .error f) (signal : StopSignal) :
    m.scan s listing signal =
      { outcome := .error f, monitor := ({ m with busy := true } : Monitor).abort f, service := s } := by
  simp [scan, enter, free, scanEntered, failed]

theorem scan_listed (free : m.busy = false) {listing : Listing} {agreements : List Agreement}
    (listed : listing.result m.config = .ok agreements) (signal : StopSignal) :
    m.scan s listing signal =
      let last := (Scan.start m s agreements.length signal.early).visitAll signal.during 0 agreements
      { outcome := .ok (.completed last.prune.close.report)
        monitor := last.prune.close.monitor
        service := last.service
        pending := last.pending } := by
  have entered : m.enter = some { m with busy := true } := by simp [enter, free]
  have ended := Scan.prune_close_frame
    ((Scan.start m s agreements.length signal.early).visitAll signal.during 0 agreements)
  dsimp only
  rw [← ended.1, ← ended.2.1]
  simp only [scan, entered, scanEntered]
  rw [listed]
  rfl

theorem scan_completed {agreements : List Agreement} {signal : StopSignal} {report : ScanReport}
    (completed : (m.scan s (.listed agreements) signal).outcome = .ok (.completed report)) :
    let last := (Scan.start m s agreements.length signal.early).visitAll signal.during 0 agreements
    (m.scan s (.listed agreements) signal).service = last.service ∧
      report.failures = last.report.failures ∧ report.cancelled = last.report.cancelled := by
  cases free : m.busy with
  | true =>
      rw [scan_busy s free] at completed
      cases completed
  | false =>
      rw [scan_listed s free rfl] at completed ⊢
      cases completed
      obtain ⟨-, -, failures, cancelled⟩ := Scan.prune_close_frame
        ((Scan.start m s agreements.length signal.early).visitAll signal.during 0 agreements)
      exact ⟨rfl, failures, cancelled⟩

end Monitor

end RetirementLedger

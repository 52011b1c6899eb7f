import RetirementLedger.Proofs.System.Counters

/-!
Any number of calls to scan, which come and go their steps in any order. Nothing but the monitor's guard
keeps them apart. `run_mirrors` says that it does so well enough: the system, which has room for one
scan only, can do whatever they do.
-/
namespace RetirementLedger

structure ScanCall where
  phase : Option ScanPhase
  ended : Option ScanEnd

inductive ScanStep where
  | list (listing : Listing)
  | proceed
  | settle
  | giveUp
  | stop

structure Scanning extends Traffic where
  monitor : Monitor
  /-- All calls to scan that were ever made; those that have ended stay in their places. -/
  scans : List ScanCall := []
  outcomes : List ScanEnd := []

namespace ScanCall

def isUnderWay (call : ScanCall) : Bool := call.phase.isSome

end ScanCall

def ScanStep.act : ScanStep → System.Act
  | .list listing => .list listing
  | .proceed => .proceed
  | .settle => .settle
  | .giveUp => .giveUp
  | .stop => .stop

namespace Scanning

variable (s : Scanning)

inductive Act where
  | traffic (act : Traffic.Act)
  | call
  | scan (place : Nat) (step : ScanStep)

def phaseAt (place : Nat) : Option ScanPhase := s.scans[place]?.bind ScanCall.phase

def underWay : Nat := s.scans.countP ScanCall.isUnderWay

def seenBy (phase : Option ScanPhase) : System :=
  { toTraffic := s.toTraffic, monitor := s.monitor, scan := phase }

def adopt (after : System) (place : ScanCall → List ScanCall) : Scanning :=
  { toTraffic := after.toTraffic
    monitor := after.monitor
    scans := place ⟨after.scan, after.outcomes.head?⟩
    outcomes := s.outcomes ++ after.outcomes }

def step : Act → Scanning
  | .traffic act => { s with toTraffic := s.toTraffic.step act }
  | .call => s.adopt ((s.seenBy none).step .enter) fun call => s.scans ++ [call]
  | .scan place step =>
    match s.phaseAt place with
    | some phase => s.adopt ((s.seenBy (some phase)).step step.act) fun call => s.scans.set place call
    | none => s

def run (acts : List Act) : Scanning := acts.foldl step s

structure IsInitial : Prop where
  traffic : s.toTraffic.IsInitial
  monitor : s.monitor = { config := s.monitor.config }
  noScans : s.scans = []
  noOutcomes : s.outcomes = []

def setUp (store : Store) (clock : Instant) : Scanning :=
  { service := { store := ⟨store, .none⟩, clock }, monitor := {} }

theorem isInitial_setUp {store : Store} (empty : store = .memory .empty ∨ store = .database .fresh)
    (clock : Instant) : (setUp store clock).IsInitial :=
  ⟨⟨empty, rfl, rfl, rfl, rfl⟩, rfl, rfl, rfl⟩

variable {s}

theorem step_call_of_busy (busy : s.monitor.busy = true) :
    s.step .call =
      { s with
        monitor := s.monitor.skip
        scans := s.scans ++ [⟨none, some (.ok .skippedBusy)⟩]
        outcomes := s.outcomes ++ [.ok .skippedBusy] } := by
  simp [step, adopt, seenBy, System.step, System.enter, Monitor.enter, busy]

theorem step_call_of_free (free : s.monitor.busy = false) :
    s.step .call =
      { s with
        monitor := { s.monitor with busy := true }
        scans := s.scans ++ [⟨some (.listing s.service.clock false), none⟩] } := by
  simp [step, adopt, seenBy, System.step, System.enter, Monitor.enter, free]

theorem step_scan {place : Nat} {phase : ScanPhase} (here : s.phaseAt place = some phase)
    (step : ScanStep) :
    s.step (.scan place step) =
      s.adopt ((s.seenBy (some phase)).step step.act) fun call => s.scans.set place call := by
  simp only [Scanning.step, here]

theorem phaseAt_step_scan {place : Nat} {phase : ScanPhase} (here : s.phaseAt place = some phase)
    (step : ScanStep) :
    (s.step (.scan place step)).phaseAt place = ((s.seenBy (some phase)).step step.act).scan := by
  obtain ⟨call, found, under⟩ := Option.bind_eq_some_iff.mp here
  obtain ⟨below, -⟩ := List.getElem?_eq_some_iff.mp found
  rw [step_scan here]
  simp [phaseAt, adopt, List.getElem?_set_self below]

theorem step_list_of_failed {place : Nat} {startedAt : Instant} {stopped : Bool}
    {listing : Listing} {f : Failure}
    (here : s.phaseAt place = some (.listing startedAt stopped))
    (failed : listing.result s.monitor.config = .error f) :
    s.step (.scan place (.list listing)) =
      { s with
        monitor := s.monitor.abort f
        scans := s.scans.set place ⟨none, some (.error f)⟩
        outcomes := s.outcomes ++ [.error f] } := by
  rw [step_scan here]
  simp [adopt, seenBy, ScanStep.act, System.step, System.list, failed]

theorem underWay_eq : s.underWay = (s.scans.filterMap ScanCall.phase).length := by
  rw [List.length_filterMap_eq_countP]
  rfl

end Scanning

namespace System

theorem step_append_outcomes (s : System) (earlier : List ScanEnd) (act : Act) :
    step { s with outcomes := earlier ++ s.outcomes } act =
      { s.step act with outcomes := earlier ++ (s.step act).outcomes } := by
  have finished (sc : Scan) :
      finish { s with outcomes := earlier ++ s.outcomes } sc =
        { s.finish sc with outcomes := earlier ++ (s.finish sc).outcomes } := by
    simp only [finish, List.append_assoc]
  cases act with
  | traffic act => rfl
  | enter =>
      simp only [step, enter]
      cases s.monitor.enter with
      | none => simp only [List.append_assoc]
      | some m => rfl
  | list listing =>
      simp only [step]
      split
      · simp only [list]
        split
        · simp only [List.append_assoc]
        · rfl
      · rfl
  | proceed =>
      simp only [step]
      split
      · next p rest phase =>
          cases rest with
          | nil => exact finished _
          | cons a rest =>
              simp only [proceed]
              split
              · exact finished _
              · have same : resume { s with outcomes := earlier ++ s.outcomes } p = s.resume p := rfl
                rw [same]
                rcases (s.resume p).examine a with ⟨next, _ | constraintId⟩
                · rfl
                · rfl
      · rfl
  | settle =>
      simp only [step]
      split
      · split
        · rfl
        · rfl
      · rfl
  | giveUp =>
      simp only [step]
      split
      · split
        · rfl
        · rfl
      · rfl
  | stop => rfl

theorem Transition.length_outcomes {s after : System} {act : Act} (transition : s.Transition act after)
    (inside : act ≠ .enter) :
    after.outcomes.length + after.scan.toList.length =
      s.outcomes.length + s.scan.toList.length := by
  cases transition with
  | idle notHanded => rfl
  | traffic act => rfl
  | refusedBusy busy => exact absurd rfl inside
  | entered free => exact absurd rfl inside
  | aborted phase failed => simp [phase]
  | listed phase answer => simp [phase]
  | ended phase => simp [phase, finish]
  | cancelled phase stopRequested => simp [phase, finish]
  | passed phase going examined => simp [phase, adopt]
  | begunCall phase going examined => simp [phase]
  | settled phase done => simp [phase, conclude, adopt]
  | givenUp phase begun => simp [phase, conclude, adopt]
  | stopped => cases s.scan <;> rfl

end System

namespace Scanning

/-- The system has done what the calls to scan have done. -/
structure Mirrors (s : Scanning) (t : System) : Prop where
  traffic : t.toTraffic = s.toTraffic
  monitor : t.monitor = s.monitor
  outcomes : t.outcomes = s.outcomes
  scan : s.scans.filterMap ScanCall.phase = t.scan.toList
  length : s.scans.length = t.outcomes.length + t.scan.toList.length

variable {s : Scanning} {t : System}

theorem filterMap_set {calls : List ScanCall} {place : Nat} {phase phase' : ScanPhase}
    (only : calls.filterMap ScanCall.phase = [phase])
    (here : calls[place]?.bind ScanCall.phase = some phase') (next : ScanCall) :
    (calls.set place next).filterMap ScanCall.phase = next.phase.toList := by
  obtain ⟨call, found, under⟩ := Option.bind_eq_some_iff.mp here
  obtain ⟨below, rfl⟩ := List.getElem?_eq_some_iff.mp found
  -- The list falls apart at `place`, and nothing on either side is under way.
  have parts (call : ScanCall) :
      calls.set place call = calls.take place ++ call :: calls.drop (place + 1) := by
    rw [List.set_eq_take_append_cons_drop, if_pos below]
  have whole := parts calls[place]
  rw [List.set_getElem_self] at whole
  rw [whole, List.filterMap_append, List.filterMap_cons_some under] at only
  obtain ⟨before, -, after⟩ :
      (calls.take place).filterMap ScanCall.phase = [] ∧ phase' = phase ∧
        (calls.drop (place + 1)).filterMap ScanCall.phase = [] := by
    simpa [List.append_eq_singleton_iff] using only
  rw [parts next, List.filterMap_append, before]
  cases idle : next.phase <;> simp [idle, after]

theorem mem_filterMap_of_getElem? {calls : List ScanCall} {place : Nat} {phase : ScanPhase}
    (here : calls[place]?.bind ScanCall.phase = some phase) :
    phase ∈ calls.filterMap ScanCall.phase := by
  obtain ⟨call, found, under⟩ := Option.bind_eq_some_iff.mp here
  exact List.mem_filterMap.mpr ⟨call, List.mem_of_getElem? found, under⟩

theorem Mirrors.seenBy (mirrors : s.Mirrors t) : s.seenBy t.scan = { t with outcomes := [] } := by
  simp only [Scanning.seenBy, ← mirrors.traffic, ← mirrors.monitor]

theorem Mirrors.phase (mirrors : s.Mirrors t) {place : Nat} {phase : ScanPhase}
    (here : s.phaseAt place = some phase) : t.scan = some phase := by
  have member := mem_filterMap_of_getElem? here
  rw [mirrors.scan] at member
  simpa using member

theorem Mirrors.call (mirrors : s.Mirrors t) (countsScans : t.CountsScans) :
    (s.step .call).Mirrors (t.step .enter) := by
  have same : t.monitor = s.monitor := mirrors.monitor
  have scan := mirrors.scan
  have length := mirrors.length
  cases busy : s.monitor.busy with
  | true =>
      have refusedBusy : t.step .enter =
          { t with monitor := t.monitor.skip, outcomes := t.outcomes ++ [.ok .skippedBusy] } := by
        simp [System.step, System.enter, Monitor.enter, same, busy]
      rw [step_call_of_busy busy, refusedBusy]
      refine ⟨mirrors.traffic, congrArg Monitor.skip same, ?_, ?_, ?_⟩
      · simp [mirrors.outcomes]
      · simp [scan]
      · simp only [List.length_append, List.length_singleton]
        omega
  | false =>
      have entered : t.step .enter =
          { t with
            monitor := { t.monitor with busy := true }
            scan := some (.listing t.service.clock false) } := by
        simp [System.step, System.enter, Monitor.enter, same, busy]
      have idle : t.scan = none := by
        have guarded := countsScans.guarded
        rw [same, busy] at guarded
        simpa using guarded.symm
      rw [idle] at scan length
      rw [step_call_of_free busy, entered]
      refine ⟨mirrors.traffic, ?_, mirrors.outcomes, ?_, ?_⟩
      · rw [same]
      · simp only [List.filterMap_append, scan, mirrors.traffic]
        rfl
      · simpa using length

theorem Mirrors.only (mirrors : s.Mirrors t) {place : Nat} {phase : ScanPhase}
    (here : s.phaseAt place = some phase) : s.scans.filterMap ScanCall.phase = [phase] := by
  rw [mirrors.scan, mirrors.phase here]
  rfl

theorem Mirrors.scan_step (mirrors : s.Mirrors t) {place : Nat} {phase : ScanPhase}
    (here : s.phaseAt place = some phase) (step : ScanStep) :
    (s.step (.scan place step)).Mirrors (t.step step.act) := by
  have underWay : t.scan = some phase := mirrors.phase here
  have seen : s.seenBy (some phase) = { t with outcomes := [] } := by
    rw [← underWay, mirrors.seenBy]
  have stepped : t.step step.act =
      { (s.seenBy (some phase)).step step.act with
        outcomes := t.outcomes ++ ((s.seenBy (some phase)).step step.act).outcomes } := by
    rw [← System.step_append_outcomes, seen]
    simp
  have inside : step.act ≠ .enter := by cases step <;> simp [ScanStep.act]
  have length := (t.transition step.act).length_outcomes inside
  have count := mirrors.length
  rw [underWay] at length count
  rw [step_scan here]
  constructor
  · rw [stepped]; rfl
  · rw [stepped]; rfl
  · rw [stepped]
    simp only [adopt, mirrors.outcomes]
  · rw [stepped]
    exact filterMap_set (mirrors.only here) here _
  · simp only [adopt, List.length_set]
    omega

theorem Mirrors.underWay (mirrors : s.Mirrors t) : s.underWay = t.scan.toList.length := by
  rw [underWay_eq, mirrors.scan]

theorem Mirrors.busy (mirrors : s.Mirrors t) (reachable : t.Reachable) :
    s.monitor.busy = decide (0 < s.underWay) := by
  rw [← mirrors.monitor, reachable.countsScans.guarded, mirrors.underWay]
  cases t.scan <;> rfl

theorem Mirrors.underWay_of_over (mirrors : s.Mirrors t) {place : Nat} {phase : ScanPhase}
    (here : s.phaseAt place = some phase) {step : ScanStep}
    (ended : (s.step (.scan place step)).phaseAt place = none) :
    (s.step (.scan place step)).underWay = 0 := by
  rw [phaseAt_step_scan here] at ended
  rw [underWay_eq, step_scan here]
  simp only [adopt, filterMap_set (mirrors.only here) here, ended]
  rfl

theorem Mirrors.step (mirrors : s.Mirrors t) (countsScans : t.CountsScans) (act : Act) :
    ∃ acts, (s.step act).Mirrors (t.run acts) := by
  cases act with
  | traffic act =>
      refine ⟨[.traffic act], ?_, mirrors.monitor, mirrors.outcomes, mirrors.scan, mirrors.length⟩
      exact congrArg (Traffic.step · act) mirrors.traffic
  | call => exact ⟨[.enter], mirrors.call countsScans⟩
  | scan place step =>
      cases here : s.phaseAt place with
      | some phase => exact ⟨[step.act], mirrors.scan_step here step⟩
      | none =>
          -- No scan is under way there that could do a step: the system stays where it is.
          have notHanded : s.step (.scan place step) = s := by simp only [Scanning.step, here]
          rw [notHanded]
          exact ⟨[], mirrors⟩

theorem run_mirrors (acts : List Act) (mirrors : s.Mirrors t) (reachable : t.Reachable) :
    ∃ t' : System, t'.Reachable ∧ (s.run acts).Mirrors t' := by
  induction acts generalizing s t with
  | nil => exact ⟨t, reachable, mirrors⟩
  | cons act acts ih =>
      obtain ⟨steps, mirrors⟩ := mirrors.step reachable.countsScans act
      exact ih mirrors (reachable.run steps)

/-- Every state that the calls to scan can come to is one that the system can come to. -/
theorem IsInitial.mirrored (initial : s.IsInitial) (acts : List Act) :
    ∃ t : System, t.Reachable ∧ (s.run acts).Mirrors t := by
  have first : (s.seenBy none).IsInitial := ⟨initial.traffic, initial.monitor, rfl, rfl⟩
  refine run_mirrors acts ?_ first.reachable
  exact ⟨rfl, rfl, initial.noOutcomes.symm, by rw [initial.noScans]; rfl, by rw [initial.noScans]; rfl⟩

end Scanning

end RetirementLedger

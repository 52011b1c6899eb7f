import RetirementLedger.Monitor.Scan
import RetirementLedger.Proofs.Traffic.Notices

/-!
The whole system: the traffic at the service and the monitor, whose scan is one more party that
begins calls. Between any two steps of a scan others may act.
-/
namespace RetirementLedger

structure ScanProgress where
  report : ScanReport
  stopped : Bool
  listedIds : List String

inductive ScanPhase where
  | listing (startedAt : Instant) (stopped : Bool)
  | visiting (progress : ScanProgress) (rest : List Agreement)
  /-- It waits for the call at this place, which is to retire this agreement. -/
  | waiting (progress : ScanProgress) (agreementId : String) (place : Nat) (rest : List Agreement)

structure System extends Traffic where
  monitor : Monitor
  scan : Option ScanPhase := none
  outcomes : List (Except Failure ScanOutcome) := []

namespace Scan

def progress (sc : Scan) : ScanProgress := ⟨sc.report, sc.stopped, sc.listedIds⟩

end Scan

namespace ScanPhase

def stop : ScanPhase → ScanPhase
  | .listing startedAt _ => .listing startedAt true
  | .visiting p rest => .visiting { p with stopped := true } rest
  | .waiting p agreementId place rest => .waiting { p with stopped := true } agreementId place rest

end ScanPhase

namespace System

variable (s : System)

inductive Act where
  | traffic (act : Traffic.Act)
  | enter
  | list (listing : Listing)
  /-- The scan visits the next agreement, or ends if there is none. -/
  | proceed
  | settle
  /-- The scan stops waiting, and the call goes on. -/
  | giveUp
  | stop

def resume (p : ScanProgress) : Scan :=
  { monitor := s.monitor
    service := s.service
    report := p.report
    stopped := p.stopped
    listedIds := p.listedIds }

def enter : System :=
  match s.monitor.enter with
  | none =>
    { s with monitor := s.monitor.skip, outcomes := s.outcomes ++ [.ok .skippedBusy] }
  | some m => { s with monitor := m, scan := some (.listing s.service.clock false) }

def list (startedAt : Instant) (stopped : Bool) (listing : Listing) : System :=
  match listing.result s.monitor.config with
  | .error f =>
    { s with monitor := s.monitor.abort f, scan := none, outcomes := s.outcomes ++ [.error f] }
  | .ok agreements =>
    let report : ScanReport := { startedAt := some startedAt, listed := agreements.length }
    { s with scan := some (.visiting ⟨report, stopped, []⟩ agreements) }

def adopt (sc : Scan) (rest : List Agreement) : System :=
  { s with monitor := sc.monitor, scan := some (.visiting sc.progress rest) }

def finish (sc : Scan) : System :=
  { s with
    monitor := sc.prune.close.monitor
    scan := none
    outcomes := s.outcomes ++ [.ok (.completed sc.prune.close.report)] }

def proceed (p : ScanProgress) : List Agreement → System
  | [] => s.finish (s.resume p)
  | a :: rest =>
    if p.stopped then
      s.finish ((s.resume p).mapReport fun r => { r with cancelled := true })
    else
      match (s.resume p).examine a with
      | (sc, none) => s.adopt sc rest
      | (sc, some constraintId) =>
        { s with
          toTraffic :=
            s.ask a.agreementId (ReasonCode.violationReason constraintId) monitorActor
          monitor := sc.monitor
          scan := some (.waiting sc.progress a.agreementId s.calls.length rest) }

def conclude (p : ScanProgress) (agreementId : String) (rest : List Agreement)
    (attempt : Attempt) : System :=
  s.adopt ((s.resume p).conclude agreementId (attempt.result s.monitor.config)) rest

def step : Act → System
  | .traffic act => { s with toTraffic := s.toTraffic.step act }
  | .enter => s.enter
  | .list listing =>
    match s.scan with
    | some (.listing startedAt stopped) => s.list startedAt stopped listing
    | _ => s
  | .proceed =>
    match s.scan with
    | some (.visiting p rest) => s.proceed p rest
    | _ => s
  | .settle =>
    match s.scan with
    | some (.waiting p agreementId place rest) =>
      match s.calls[place]? with
      | some (.done reply) => s.conclude p agreementId rest (.answered reply)
      | _ => s
    | _ => s
  | .giveUp =>
    match s.scan with
    | some (.waiting p agreementId place rest) =>
      match s.calls[place]? with
      | some call => s.conclude p agreementId rest (.stalled call)
      | none => s
    | _ => s
  | .stop => { s with scan := s.scan.map ScanPhase.stop }

def run (acts : List Act) : System := acts.foldl step s

structure IsInitial : Prop where
  traffic : s.toTraffic.IsInitial
  monitor : s.monitor = { config := s.monitor.config }
  noScan : s.scan = none
  noOutcomes : s.outcomes = []

def setUp (store : Store) (clock : Instant) : System :=
  { service := { store := ⟨store, .none⟩, clock }, monitor := {} }

def Reachable : Prop := ∃ (start : System) (acts : List Act), start.IsInitial ∧ start.run acts = s

variable {s}

theorem step_toTraffic (act : Act) :
    ∃ acts, (s.step act).toTraffic = s.toTraffic.run acts := by
  have nothing : ∃ acts, s.toTraffic = s.toTraffic.run acts := ⟨[], rfl⟩
  cases act with
  | traffic act => exact ⟨[act], rfl⟩
  | enter =>
      simp only [step, enter]
      cases s.monitor.enter <;> exact nothing
  | list listing =>
      simp only [step]
      split
      · unfold list
        split <;> exact nothing
      · exact nothing
  | proceed =>
      simp only [step]
      split
      · next p rest phase =>
          cases rest with
          | nil => exact nothing
          | cons a rest =>
              simp only [proceed]
              split
              · exact nothing
              · split
                · exact nothing
                · exact ⟨[.ask _ _ _], rfl⟩
      · exact nothing
  | settle =>
      simp only [step]
      split
      · split <;> exact nothing
      · exact nothing
  | giveUp =>
      simp only [step]
      split
      · split <;> exact nothing
      · exact nothing
  | stop => exact nothing

theorem run_toTraffic (acts : List Act) :
    ∃ more, (s.run acts).toTraffic = s.toTraffic.run more := by
  induction acts generalizing s with
  | nil => exact ⟨[], rfl⟩
  | cons act rest ih =>
      obtain ⟨first, step⟩ := step_toTraffic (s := s) act
      obtain ⟨others, run⟩ := ih (s := s.step act)
      refine ⟨first ++ others, ?_⟩
      rw [step] at run
      simpa [System.run, Traffic.run, List.foldl_append] using run

@[simp] theorem run_nil : s.run [] = s := rfl

@[simp] theorem run_cons (act : Act) (acts : List Act) :
    s.run (act :: acts) = (s.step act).run acts := rfl

theorem run_append (before after : List Act) : s.run (before ++ after) = (s.run before).run after :=
  List.foldl_append

theorem run_concat (acts : List Act) (act : Act) : s.run (acts ++ [act]) = (s.run acts).step act :=
  run_append acts [act]

theorem run_traffic (acts : List Traffic.Act) :
    s.run (acts.map .traffic) = { s with toTraffic := s.toTraffic.run acts } := by
  induction acts generalizing s with
  | nil => rfl
  | cons act rest ih =>
      change (s.step (.traffic act)).run _ = _
      rw [ih]
      rfl

theorem Reachable.run (reachable : s.Reachable) (acts : List Act) : (s.run acts).Reachable := by
  obtain ⟨start, before, initial, rfl⟩ := reachable
  exact ⟨start, before ++ acts, initial, run_append before acts⟩

/-- What holds at first, and after a step wherever it held before, always holds. -/
theorem Reachable.invariant {P : System → Prop} (first : ∀ {s : System}, s.IsInitial → P s)
    (next : ∀ {s : System} (act : Act), s.Reachable → P s → P (s.step act))
    (reachable : s.Reachable) : P s := by
  obtain ⟨start, acts, initial, rfl⟩ := reachable
  have from_ {s : System} (reachable : s.Reachable) (holds : P s) : P (s.run acts) := by
    induction acts generalizing s with
    | nil => exact holds
    | cons act rest ih => exact ih (reachable.run [act]) (next act reachable holds)
  exact from_ ⟨start, [], initial, rfl⟩ (first initial)

theorem isInitial_setUp {store : Store} (empty : store = .memory .empty ∨ store = .database .fresh)
    (clock : Instant) : (setUp store clock).IsInitial :=
  ⟨⟨empty, rfl, rfl, rfl, rfl⟩, rfl, rfl, rfl⟩

theorem IsInitial.reachable (initial : s.IsInitial) : s.Reachable := ⟨s, [], initial, rfl⟩

theorem run_moves (sound : s.store.Sound) (acts : List Act) :
    Relation.ReflTransGen Traffic.Move s.toTraffic (s.run acts).toTraffic := by
  obtain ⟨more, run⟩ := run_toTraffic (s := s) acts
  rw [run]
  exact Traffic.run_moves sound more

theorem Reachable.recorded (reachable : s.Reachable) : s.toTraffic.Recorded := by
  obtain ⟨start, acts, initial, rfl⟩ := reachable
  exact initial.traffic.recorded.moves (run_moves initial.traffic.sound acts)

theorem Reachable.accounted (reachable : s.Reachable) : s.toTraffic.Accounted := by
  obtain ⟨start, acts, initial, rfl⟩ := reachable
  exact initial.traffic.accounted.moves (run_moves initial.traffic.sound acts)

end System

end RetirementLedger

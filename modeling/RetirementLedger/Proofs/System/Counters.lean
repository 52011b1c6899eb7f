import RetirementLedger.Proofs.System.Transitions

namespace RetirementLedger

abbrev ScanEnd := Except Failure ScanOutcome

namespace ScanEnd

def report? : ScanEnd → Option ScanReport
  | .ok (.completed report) => some report
  | _ => none

def failure? : ScanEnd → Option Failure
  | .error f => some f
  | .ok _ => none

def isSkipped : ScanEnd → Bool
  | .ok .skippedBusy => true
  | _ => false

def lastFailure? (ends : List ScanEnd) : Option Failure :=
  (ends.filter (!isSkipped ·)).getLast?.bind failure?

def lastReport? (ends : List ScanEnd) : Option ScanReport := (ends.filterMap report?).getLast?

end ScanEnd

namespace Monitor

/-- The monitor's counters, last report and last error are those after scans that have ended in these ways. -/
structure CountsEnds (m : Monitor) (ends : List ScanEnd) : Prop where
  count : ends.length = m.cycles + m.aborted + m.skippedBusy
  report : m.lastReport = ScanEnd.lastReport? ends
  error : m.lastError = (ScanEnd.lastFailure? ends).map Failure.message

variable {m : Monitor} {ends : List ScanEnd}

theorem countsEnds_nil (config : MonitorConfig) : CountsEnds { config } [] := ⟨rfl, rfl, rfl⟩

theorem CountsEnds.skip (countsEnds : m.CountsEnds ends) :
    m.skip.CountsEnds (ends ++ [.ok .skippedBusy]) where
  count := by
    have count := countsEnds.count
    simp only [Monitor.skip, List.length_append, List.length_singleton]
    omega
  report := by simpa [ScanEnd.lastReport?, ScanEnd.report?, Monitor.skip] using countsEnds.report
  error := by
    simpa [ScanEnd.lastFailure?, ScanEnd.isSkipped, Monitor.skip, List.filter_append]
      using countsEnds.error

theorem CountsEnds.abort (countsEnds : m.CountsEnds ends) (f : Failure) :
    (m.abort f).CountsEnds (ends ++ [.error f]) where
  count := by
    have count := countsEnds.count
    simp only [Monitor.abort, List.length_append, List.length_singleton]
    omega
  report := by simpa [ScanEnd.lastReport?, ScanEnd.report?, Monitor.abort] using countsEnds.report
  error := by
    simp [ScanEnd.lastFailure?, ScanEnd.isSkipped, ScanEnd.failure?, Monitor.abort,
      List.filter_append]

theorem CountsEnds.complete (countsEnds : m.CountsEnds ends) (report : ScanReport) :
    (m.complete report).CountsEnds (ends ++ [.ok (.completed report)]) where
  count := by
    have count := countsEnds.count
    simp only [Monitor.complete, List.length_append, List.length_singleton]
    omega
  report := by simp [ScanEnd.lastReport?, ScanEnd.report?, Monitor.complete]
  error := by
    simp [ScanEnd.lastFailure?, ScanEnd.isSkipped, ScanEnd.failure?, Monitor.complete,
      List.filter_append]

structure SameCounters (m n : Monitor) : Prop where
  busy : n.busy = m.busy
  cycles : n.cycles = m.cycles
  aborted : n.aborted = m.aborted
  skippedBusy : n.skippedBusy = m.skippedBusy
  lastReport : n.lastReport = m.lastReport
  lastError : n.lastError = m.lastError

theorem CountsEnds.congr {n : Monitor} (countsEnds : m.CountsEnds ends) (same : SameCounters m n) :
    n.CountsEnds ends where
  count := by rw [same.cycles, same.aborted, same.skippedBusy, countsEnds.count]
  report := same.lastReport.trans countsEnds.report
  error := same.lastError.trans countsEnds.error

end Monitor

namespace Scan
open Monitor

variable {sc next : Scan} {a : Agreement} {constraintId : Option String}

theorem Examined.sameCounters (examined : sc.Examined a next constraintId) :
    SameCounters sc.monitor next.monitor := by
  cases examined <;> exact ⟨rfl, rfl, rfl, rfl, rfl, rfl⟩

theorem conclude_sameCounters (sc : Scan) (agreementId : String) (result : Except Failure Receipt) :
    SameCounters sc.monitor (sc.conclude agreementId result).monitor := by
  cases result <;> exact ⟨rfl, rfl, rfl, rfl, rfl, rfl⟩

theorem prune_sameCounters (sc : Scan) : SameCounters sc.monitor sc.prune.monitor := by
  unfold prune
  split <;> exact ⟨rfl, rfl, rfl, rfl, rfl, rfl⟩

end Scan

namespace System

variable {s after : System} {act : Act}

structure CountsScans (s : System) : Prop where
  guarded : s.monitor.busy = s.scan.isSome
  tallied : s.monitor.CountsEnds s.outcomes

theorem IsInitial.countsScans (initial : s.IsInitial) : s.CountsScans where
  guarded := by rw [initial.monitor, initial.noScan]; rfl
  tallied := by
    rw [initial.monitor, initial.noOutcomes]
    exact Monitor.countsEnds_nil _

theorem countsScans_finish {sc : Scan} (tallied : s.monitor.CountsEnds s.outcomes)
    (monitor : sc.monitor = s.monitor) : (s.finish sc).CountsScans where
  guarded := rfl
  tallied := by
    have same := sc.prune_sameCounters
    rw [monitor] at same
    exact (tallied.congr same).complete _

theorem Transition.countsScans (transition : s.Transition act after) (countsScans : s.CountsScans) :
    after.CountsScans := by
  have concluded (p : ScanProgress) (agreementId : String) (rest : List Agreement)
      (attempt : Attempt) (underWay : s.scan.isSome = true) :
      (s.conclude p agreementId rest attempt).CountsScans := by
    have same := (s.resume p).conclude_sameCounters agreementId (attempt.result s.monitor.config)
    refine ⟨?_, countsScans.tallied.congr same⟩
    exact (same.busy.trans countsScans.guarded).trans underWay
  have visited {p : ScanProgress} {a : Agreement} {next : Scan} {constraintId : Option String}
      (examined : (s.resume p).Examined a next constraintId) (underWay : s.scan.isSome = true) :
      next.monitor.busy = true ∧ next.monitor.CountsEnds s.outcomes := by
    have same := examined.sameCounters
    exact ⟨(same.busy.trans countsScans.guarded).trans underWay, countsScans.tallied.congr same⟩
  cases transition with
  | idle notHanded => exact countsScans
  | traffic act => exact ⟨countsScans.guarded, countsScans.tallied⟩
  | refusedBusy busy => exact ⟨countsScans.guarded, countsScans.tallied.skip⟩
  | entered free =>
      have tallied := countsScans.tallied
      exact ⟨rfl, tallied.count, tallied.report, tallied.error⟩
  | aborted phase failed => exact ⟨rfl, countsScans.tallied.abort _⟩
  | listed phase answer =>
      refine ⟨?_, countsScans.tallied⟩
      rw [countsScans.guarded, phase]
      rfl
  | ended phase => exact countsScans_finish countsScans.tallied rfl
  | cancelled phase stopRequested => exact countsScans_finish countsScans.tallied rfl
  | passed phase going examined =>
      obtain ⟨busy, tallied⟩ := visited examined (by rw [phase]; rfl)
      exact ⟨busy, tallied⟩
  | begunCall phase going examined =>
      obtain ⟨busy, tallied⟩ := visited examined (by rw [phase]; rfl)
      exact ⟨busy, tallied⟩
  | settled phase done => exact concluded _ _ _ _ (by rw [phase]; rfl)
  | givenUp phase begun => exact concluded _ _ _ _ (by rw [phase]; rfl)
  | stopped =>
      refine ⟨?_, countsScans.tallied⟩
      rw [countsScans.guarded, Option.isSome_map]

theorem Reachable.countsScans (reachable : s.Reachable) : s.CountsScans :=
  reachable.invariant IsInitial.countsScans fun act _ => (transition _ act).countsScans

end System

end RetirementLedger

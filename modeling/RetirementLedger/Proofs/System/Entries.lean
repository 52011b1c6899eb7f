import RetirementLedger.Proofs.Monitor.Entries
import RetirementLedger.Proofs.System.Transitions

namespace RetirementLedger.System

variable {s after : System} {act : Act}

structure HasSoundEntries (s : System) : Prop where
  sound : s.monitor.watch.IsSound
  waiting : ∀ p id place rest, s.scan = some (.waiting p id place rest) →
    ∀ e, s.monitor.watch.find? id = some e → e.state ≠ .watching

theorem IsInitial.hasSoundEntries (initial : s.IsInitial) : s.HasSoundEntries where
  sound id e known := by
    rw [initial.monitor] at known
    cases known
  waiting p id place rest phase := by
    rw [initial.noScan] at phase
    cases phase

theorem hasSoundEntries_conclude {p : ScanProgress} {id : String} {place : Nat} {rest : List Agreement}
    (hasSoundEntries : s.HasSoundEntries) (phase : s.scan = some (.waiting p id place rest))
    (attempt : Attempt) :
    (s.conclude p id rest attempt).HasSoundEntries := by
  refine ⟨?_, fun _ _ _ _ phase => by cases phase⟩
  have sound : (s.resume p).monitor.watch.IsSound := hasSoundEntries.sound
  exact Scan.conclude_isSound sound (hasSoundEntries.waiting p id place rest phase)

theorem hasSoundEntries_finish {sc : Scan} (hasSoundEntries : s.HasSoundEntries)
    (monitor : sc.monitor = s.monitor) :
    (s.finish sc).HasSoundEntries := by
  refine ⟨?_, fun _ _ _ _ phase => by cases phase⟩
  apply Scan.prune_close_isSound
  rw [monitor]
  exact hasSoundEntries.sound

theorem Transition.hasSoundEntries (transition : s.Transition act after)
    (hasSoundEntries : s.HasSoundEntries) : after.HasSoundEntries := by
  cases transition with
  | idle notHanded => exact hasSoundEntries
  | traffic act => exact ⟨hasSoundEntries.sound, hasSoundEntries.waiting⟩
  | refusedBusy busy => exact ⟨hasSoundEntries.sound, hasSoundEntries.waiting⟩
  | entered free => exact ⟨hasSoundEntries.sound, fun _ _ _ _ phase => by cases phase⟩
  | aborted phase failed => exact ⟨hasSoundEntries.sound, fun _ _ _ _ phase => by cases phase⟩
  | listed phase answer => exact ⟨hasSoundEntries.sound, fun _ _ _ _ phase => by cases phase⟩
  | ended phase => exact hasSoundEntries_finish hasSoundEntries rfl
  | cancelled phase stopRequested => exact hasSoundEntries_finish hasSoundEntries rfl
  | passed phase going examined =>
      exact ⟨examined.isSound hasSoundEntries.sound, fun _ _ _ _ phase => by cases phase⟩
  | begunCall phase going examined =>
      -- The scan waits only after the examination has set the entry to violated.
      refine ⟨examined.isSound hasSoundEntries.sound, fun p id place rest phase e known => ?_⟩
      cases phase
      exact examined.ne_watching known
  | settled phase done => exact hasSoundEntries_conclude hasSoundEntries phase _
  | givenUp phase begun => exact hasSoundEntries_conclude hasSoundEntries phase _
  | stopped =>
      refine ⟨hasSoundEntries.sound, fun p id place rest phase => ?_⟩
      obtain ⟨before, scan, stopped⟩ := Option.map_eq_some_iff.mp phase
      cases before with
      | listing startedAt stopRequested => cases stopped
      | visiting p rest => cases stopped
      | waiting p id place rest =>
          cases stopped
          exact hasSoundEntries.waiting _ _ _ _ scan

theorem Reachable.hasSoundEntries (reachable : s.Reachable) : s.HasSoundEntries :=
  reachable.invariant IsInitial.hasSoundEntries fun act _ => (transition _ act).hasSoundEntries

/-- A scan that goes through `rest` next has a reason to stop watching the agreement: it comes to it and
finds it terminated, or it has come to the end without having met it. -/
def Drops (p : ScanProgress) (rest : List Agreement) (id : String) : Prop :=
  (∃ a others, rest = a :: others ∧ a.agreementId = id ∧ a.status = .terminated) ∨
    rest = [] ∧ p.report.cancelled = false ∧ id ∉ p.listedIds

theorem Transition.keeps_retired (transition : s.Transition act after) {id : String} {e : WatchEntry}
    (known : s.monitor.watch.find? id = some e) (retired : e.state = .retired) :
    after.monitor.watch.find? id = some e ∨
      after.monitor.watch.find? id = none ∧ act = .proceed ∧
        ∃ p rest, s.scan = some (.visiting p rest) ∧ Drops p rest id := by
  have resumed (p : ScanProgress) : (s.resume p).monitor.watch.find? id = some e := known
  have concluded (p : ScanProgress) (agreementId : String) (rest : List Agreement)
      (attempt : Attempt) :
      (s.conclude p agreementId rest attempt).monitor.watch.find? id = some e :=
    Scan.conclude_keeps_retired (resumed p) retired
  cases transition with
  | idle notHanded => exact .inl known
  | traffic act => exact .inl known
  | refusedBusy busy => exact .inl known
  | entered free => exact .inl known
  | aborted phase failed => exact .inl known
  | listed phase answer => exact .inl known
  | @ended p phase =>
      rcases Scan.prune_close_keeps (resumed p) with kept | ⟨gone, whole, unlisted⟩
      · exact .inl kept
      · exact .inr ⟨gone, rfl, p, [], phase, .inr ⟨rfl, whole, unlisted⟩⟩
  | @cancelled p a rest phase stopRequested =>
      have known : ((s.resume p).mapReport fun r => { r with cancelled := true }).monitor.watch.find? id =
          some e := known
      rcases Scan.prune_close_keeps known with kept | ⟨_, whole, _⟩
      · exact .inl kept
      · cases whole
  | @passed p a rest next phase going examined =>
      rcases examined.keeps_retired known retired with kept | ⟨gone, -, same, terminated⟩
      · exact .inl kept
      · exact .inr ⟨gone, rfl, p, a :: rest, phase, .inl ⟨a, rest, rfl, same, terminated⟩⟩
  | begunCall phase going examined =>
      rcases examined.keeps_retired known retired with kept | ⟨_, begunCall, -⟩
      · exact .inl kept
      · cases begunCall
  | settled phase done => exact .inl (concluded _ _ _ _)
  | givenUp phase begun => exact .inl (concluded _ _ _ _)
  | stopped => exact .inl known

end RetirementLedger.System

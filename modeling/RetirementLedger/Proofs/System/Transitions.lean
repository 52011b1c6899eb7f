import RetirementLedger.Proofs.Monitor.Steps
import RetirementLedger.Proofs.System.Basic

namespace RetirementLedger

namespace System

variable (s : System)

/-- The listing that the act hands to a scan, if a scan waits for one and the listing works. -/
def handed? (act : Act) : Option (List Agreement) :=
  match act, s.scan with
  | .list listing, some (.listing _ _) => (listing.result s.monitor.config).toOption
  | _, _ => none

def listed : System → List Act → Option (List Agreement)
  | _, [] => none
  | s, act :: acts => ((s.step act).listed acts).or (s.handed? act)

inductive Transition : Act → System → Prop
  | idle {act : Act} (notHanded : s.handed? act = none) : Transition act s
  | traffic (act : Traffic.Act) : Transition (.traffic act) { s with toTraffic := s.toTraffic.step act }
  | refusedBusy (busy : s.monitor.busy = true) :
      Transition .enter { s with monitor := s.monitor.skip, outcomes := s.outcomes ++ [.ok .skippedBusy] }
  | entered (free : s.monitor.busy = false) :
      Transition .enter
        { s with
          monitor := { s.monitor with busy := true }
          scan := some (.listing s.service.clock false) }
  | aborted {startedAt : Instant} {stopped : Bool} {listing : Listing} {f : Failure}
      (phase : s.scan = some (.listing startedAt stopped))
      (failed : listing.result s.monitor.config = .error f) :
      Transition (.list listing)
        { s with monitor := s.monitor.abort f, scan := none, outcomes := s.outcomes ++ [.error f] }
  | listed {startedAt : Instant} {stopped : Bool} {listing : Listing} {agreements : List Agreement}
      (phase : s.scan = some (.listing startedAt stopped))
      (answer : listing.result s.monitor.config = .ok agreements) :
      Transition (.list listing)
        { s with
          scan := some (.visiting
            ⟨{ startedAt := some startedAt, listed := agreements.length }, stopped, []⟩
            agreements) }
  | ended {p : ScanProgress} (phase : s.scan = some (.visiting p [])) :
      Transition .proceed (s.finish (s.resume p))
  | cancelled {p : ScanProgress} {a : Agreement} {rest : List Agreement}
      (phase : s.scan = some (.visiting p (a :: rest))) (stopRequested : p.stopped = true) :
      Transition .proceed (s.finish ((s.resume p).mapReport fun r => { r with cancelled := true }))
  | passed {p : ScanProgress} {a : Agreement} {rest : List Agreement} {next : Scan}
      (phase : s.scan = some (.visiting p (a :: rest))) (going : p.stopped = false)
      (examined : (s.resume p).Examined a next none) : Transition .proceed (s.adopt next rest)
  | begunCall {p : ScanProgress} {a : Agreement} {rest : List Agreement} {next : Scan}
      {constraintId : String} (phase : s.scan = some (.visiting p (a :: rest)))
      (going : p.stopped = false)
      (examined : (s.resume p).Examined a next (some constraintId)) :
      Transition .proceed
        { s with
          toTraffic := s.ask a.agreementId (ReasonCode.violationReason constraintId) monitorActor
          monitor := next.monitor
          scan := some (.waiting next.progress a.agreementId s.calls.length rest) }
  | settled {p : ScanProgress} {agreementId : String} {place : Nat} {rest : List Agreement}
      {reply : Reply Receipt} (phase : s.scan = some (.waiting p agreementId place rest))
      (done : s.calls[place]? = some (.done reply)) :
      Transition .settle (s.conclude p agreementId rest (.answered reply))
  | givenUp {p : ScanProgress} {agreementId : String} {place : Nat} {rest : List Agreement}
      {call : RetireCall} (phase : s.scan = some (.waiting p agreementId place rest))
      (begun : s.calls[place]? = some call) :
      Transition .giveUp (s.conclude p agreementId rest (.stalled call))
  | stopped : Transition .stop { s with scan := s.scan.map ScanPhase.stop }

theorem transition_list (listing : Listing) : s.Transition (.list listing) (s.step (.list listing)) := by
  cases phase : s.scan with
  | none =>
      simp only [step, phase]
      exact .idle (by simp [handed?, phase])
  | some p =>
      cases p with
      | listing startedAt stopped =>
          simp only [step, phase]
          unfold list
          cases answer : listing.result s.monitor.config with
          | error f => exact .aborted phase answer
          | ok agreements => exact .listed phase answer
      | visiting p rest =>
          simp only [step, phase]
          exact .idle (by simp [handed?, phase])
      | waiting p agreementId place rest =>
          simp only [step, phase]
          exact .idle (by simp [handed?, phase])

theorem transition_proceed : s.Transition .proceed (s.step .proceed) := by
  cases phase : s.scan with
  | none =>
      simp only [step, phase]
      exact .idle rfl
  | some p =>
      cases p with
      | visiting p rest =>
          simp only [step, phase]
          cases rest with
          | nil => exact .ended phase
          | cons a rest =>
              simp only [proceed]
              cases stopRequested : p.stopped with
              | true => exact .cancelled phase stopRequested
              | false =>
                  have examined := (s.resume p).examined a
                  simp only [Bool.false_eq_true, if_false]
                  revert examined
                  rcases (s.resume p).examine a with ⟨next, _ | constraintId⟩ <;> intro examined
                  · exact .passed phase stopRequested examined
                  · exact .begunCall phase stopRequested examined
      | listing startedAt stopped =>
          simp only [step, phase]
          exact .idle rfl
      | waiting p agreementId place rest =>
          simp only [step, phase]
          exact .idle rfl

theorem transition_settle : s.Transition .settle (s.step .settle) := by
  simp only [step]
  split
  · next p agreementId place rest phase =>
      split
      · next reply done => exact .settled phase done
      · exact .idle rfl
  · exact .idle rfl

theorem transition_giveUp : s.Transition .giveUp (s.step .giveUp) := by
  simp only [step]
  split
  · next p agreementId place rest phase =>
      split
      · next call begun => exact .givenUp phase begun
      · exact .idle rfl
  · exact .idle rfl

theorem transition (act : Act) : s.Transition act (s.step act) := by
  cases act with
  | traffic act => exact .traffic act
  | enter =>
      cases busy : s.monitor.busy with
      | true =>
          simp only [step, enter, Monitor.enter, busy, if_true]
          exact .refusedBusy busy
      | false =>
          simp only [step, enter, Monitor.enter, busy, Bool.false_eq_true, if_false]
          exact .entered busy
  | list listing => exact s.transition_list listing
  | proceed => exact s.transition_proceed
  | settle => exact s.transition_settle
  | giveUp => exact s.transition_giveUp
  | stop => exact .stopped

end System

/-- The scan has visited the first of the agreements that it was handed and has the others before it. -/
def ScanPhase.Traverses (agreements : Option (List Agreement)) : ScanPhase → Prop
  | .listing _ _ => True
  | .visiting p rest | .waiting p _ _ rest =>
    ∃ visited, agreements = some (visited ++ rest) ∧
      p.listedIds = (visited.map (·.agreementId)).reverse

namespace System

variable {s after : System} {act : Act}

theorem traverses_examined {known : Option (List Agreement)} {p : ScanProgress} {a : Agreement}
    {rest : List Agreement} {next : Scan} {constraintId : Option String}
    (before : (ScanPhase.visiting p (a :: rest)).Traverses known)
    (examined : (s.resume p).Examined a next constraintId) :
    (ScanPhase.visiting next.progress rest).Traverses known := by
  obtain ⟨visited, known, ids⟩ := before
  refine ⟨visited ++ [a], by simpa using known, ?_⟩
  have noted := examined.listedIds
  simpa [Scan.progress, resume, ids] using noted

theorem traverses_conclude {known : Option (List Agreement)} {p : ScanProgress} {agreementId : String}
    {place : Nat} {rest : List Agreement}
    (before : (ScanPhase.waiting p agreementId place rest).Traverses known) (attempt : Attempt)
    {phase : ScanPhase} (here : (s.conclude p agreementId rest attempt).scan = some phase) :
    phase.Traverses known := by
  cases here
  obtain ⟨visited, known, ids⟩ := before
  exact ⟨visited, known, (Scan.conclude_listedIds _ _ _).trans ids⟩

theorem Transition.traverses {known : Option (List Agreement)} (transition : s.Transition act after)
    (before : ∀ phase, s.scan = some phase → phase.Traverses known) :
    ∀ phase, after.scan = some phase → phase.Traverses ((s.handed? act).or known) := by
  intro phase' here
  cases transition with
  | idle notHanded =>
      rw [notHanded]
      exact before phase' here
  | traffic act => exact before phase' here
  | refusedBusy busy => exact before phase' here
  | entered free =>
      cases here
      trivial
  | aborted phase failed => cases here
  | @listed startedAt stopped listing agreements phase answer =>
      cases here
      have handed : s.handed? (.list listing) = some agreements := by
        simp only [handed?, phase, answer, Except.toOption]
      rw [handed]
      exact ⟨[], rfl, rfl⟩
  | ended phase => cases here
  | cancelled phase stopRequested => cases here
  | passed phase going examined =>
      cases here
      exact traverses_examined (before _ phase) examined
  | begunCall phase going examined =>
      cases here
      exact traverses_examined (before _ phase) examined
  | settled phase done => exact traverses_conclude (before _ phase) _ here
  | givenUp phase begun => exact traverses_conclude (before _ phase) _ here
  | stopped =>
      obtain ⟨earlier, scan, rfl⟩ := Option.map_eq_some_iff.mp here
      have traverses := before earlier scan
      cases earlier with
      | listing startedAt stopRequested => trivial
      | visiting p rest => exact traverses
      | waiting p agreementId place rest => exact traverses

theorem run_traverses {known : Option (List Agreement)} (acts : List Act)
    (before : ∀ phase, s.scan = some phase → phase.Traverses known) :
    ∀ phase, (s.run acts).scan = some phase → phase.Traverses ((s.listed acts).or known) := by
  induction acts generalizing s known with
  | nil => simpa [listed] using before
  | cons act acts ih =>
      have later := ih ((s.transition act).traverses before)
      rw [run_cons, listed, Option.or_assoc]
      exact later

theorem IsInitial.traverses (initial : s.IsInitial) (acts : List Act) {phase : ScanPhase}
    (here : (s.run acts).scan = some phase) : phase.Traverses (s.listed acts) := by
  have nothing : ∀ phase, s.scan = some phase → phase.Traverses none := by
    intro phase here
    rw [initial.noScan] at here
    cases here
  have traverses := run_traverses acts nothing phase here
  simpa using traverses

theorem Transition.service (transition : s.Transition act after) (own : ∀ other, act ≠ .traffic other) :
    after.service = s.service := by
  cases transition with
  | traffic act => exact absurd rfl (own act)
  | _ => rfl

theorem Transition.store (transition : s.Transition act after) (own : ∀ other, act ≠ .traffic other) :
    after.store = s.store :=
  congrArg Service.holdings (transition.service own)

theorem Transition.calls (transition : s.Transition act after) (own : ∀ other, act ≠ .traffic other)
    (other : act ≠ .proceed) : after.calls = s.calls := by
  cases transition with
  | traffic act => exact absurd rfl (own act)
  | begunCall phase going examined => exact absurd rfl other
  | _ => rfl

theorem step_calls (other : ∀ place, act ≠ .traffic (.advance place)) :
    ∃ begun, (s.step act).calls = s.calls ++ begun ∧
      ∀ call ∈ begun, ∃ id reason actor, call = .asked id reason actor := by
  have nothing : ∃ begun, s.calls = s.calls ++ begun ∧
      ∀ call ∈ begun, ∃ id reason actor, call = .asked id reason actor :=
    ⟨[], by simp, by simp⟩
  have transition := s.transition act
  generalize s.step act = after at transition ⊢
  cases transition with
  | traffic act => exact Traffic.step_calls fun place same => other place (congrArg _ same)
  | begunCall phase going examined => exact ⟨[_], rfl, by simp⟩
  | _ => exact nothing

theorem calls_grow (act : Act) : s.calls.length ≤ (s.step act).calls.length := by
  by_cases advance : ∃ place, act = .traffic (.advance place)
  · obtain ⟨place, rfl⟩ := advance
    change s.calls.length ≤ (s.toTraffic.advance place).calls.length
    unfold Traffic.advance
    split
    · exact Nat.le_refl _
    · exact Nat.le_of_eq List.length_set.symm
  · obtain ⟨begun, calls, -⟩ := step_calls (s := s) fun place same => advance ⟨place, same⟩
    rw [calls, List.length_append]
    exact Nat.le_add_right _ _

theorem run_calls_grow (acts : List Act) : s.calls.length ≤ (s.run acts).calls.length := by
  induction acts generalizing s with
  | nil => exact Nat.le_refl _
  | cons act rest ih => exact Nat.le_trans (calls_grow act) ih

def KeepsClock (acts : List Act) : Prop := ∀ clock, .traffic (.setClock clock) ∉ acts

theorem keepsClock_append {earlier later : List Act} :
    KeepsClock (earlier ++ later) ↔ KeepsClock earlier ∧ KeepsClock later := by
  simp [KeepsClock, forall_and]

theorem step_clock (unset : ∀ clock, act ≠ .traffic (.setClock clock)) :
    (s.step act).service.clock = s.service.clock := by
  by_cases traffic : ∃ other, act = .traffic other
  · obtain ⟨other, rfl⟩ := traffic
    exact Traffic.step_clock fun clock same => unset clock (congrArg _ same)
  · rw [(transition s act).service fun other same => traffic ⟨other, same⟩]

theorem run_clock {acts : List Act} (keeping : KeepsClock acts) : (s.run acts).service.clock = s.service.clock := by
  induction acts generalizing s with
  | nil => rfl
  | cons act rest ih =>
      have here : ∀ clock, act ≠ .traffic (.setClock clock) := by
        rintro clock rfl
        exact keeping clock List.mem_cons_self
      rw [run_cons, ih fun clock member => keeping clock (List.mem_cons_of_mem _ member), step_clock here]

end System

end RetirementLedger

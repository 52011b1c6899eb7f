import Mathlib.Data.List.Induction
import RetirementLedger.Proofs.Monitor.Report
import RetirementLedger.Proofs.System.Counters

/-!
One scan from `enter` to its completion, with other acts in between. `collect` lists what the acts of a run show,
`ScanTransition` says what an act can do while the scan goes on, and `scan_induction` is induction along the scan.
-/
namespace RetirementLedger

def ScanPhase.isStopped : ScanPhase → Bool
  | .listing _ stopped => stopped
  | .visiting p _ | .waiting p _ _ _ => p.stopped

namespace System

def collect {α : Type} (f : System → Act → List α) : System → List Act → List α
  | _, [] => []
  | s, act :: acts => f s act ++ collect f (s.step act) acts

def scanning : System → List Act → Bool
  | s, [] => s.scan.isSome
  | s, act :: acts => s.scan.isSome && (s.step act).scanning acts

def Act.wholeScan (acts : List Act) : List Act := .enter :: acts ++ [.proceed]

/-- A scan is entered, goes through the listing while others may act as well, and completes. -/
structure Scans (s : System) (acts : List Act) (agreements : List Agreement) (report : ScanReport) :
    Prop where
  free : s.monitor.busy = false
  scanning : (s.step .enter).scanning acts = true
  listed : (s.step .enter).listed acts = some agreements
  completes : (s.run (Act.wholeScan acts)).outcomes =
    (s.run (.enter :: acts)).outcomes ++ [.ok (.completed report)]

variable (s : System)

def visited : Act → List Agreement
  | .proceed =>
    match s.scan with
    | some (.visiting p (a :: _)) => if p.stopped then [] else [a]
    | _ => []
  | _ => []

def skipped (act : Act) : List Agreement :=
  (s.visited act).filter fun a => a.status.isMonitored && s.monitor.watch.isRetired a.agreementId

def newEntries (act : Act) : List String := Catalog.gained s.monitor.watch (s.step act).monitor.watch

def asked : Act → List Nat
  | .proceed => if s.calls.length < (s.step .proceed).calls.length then [s.calls.length] else []
  | _ => []

def answered : Act → List Nat
  | .settle =>
    match s.scan with
    | some (.waiting _ _ place _) => if (s.calls[place]?).any RetireCall.isDone then [place] else []
    | _ => []
  | _ => []

inductive ScanTransition : Act → System → Prop
  | unrelated {act : Act} {after : System} (scan : after.scan = s.scan)
      (watch : after.monitor.watch = s.monitor.watch) (notHanded : s.handed? act = none)
      (noVisit : s.visited act = []) (unasked : s.asked act = []) (unanswered : s.answered act = [])
      (notStop : act ≠ .stop) : ScanTransition act after
  | stopRequested : ScanTransition .stop { s with scan := s.scan.map ScanPhase.stop }
  | listed {startedAt : Instant} {stopped : Bool} {listing : Listing} {agreements : List Agreement}
      (phase : s.scan = some (.listing startedAt stopped))
      (answer : listing.result s.monitor.config = .ok agreements) :
      ScanTransition (.list listing)
        { s with
          scan := some (.visiting
            ⟨{ startedAt := some startedAt, listed := agreements.length }, stopped, []⟩
            agreements) }
  | passed {p : ScanProgress} {a : Agreement} {rest : List Agreement} {next : Scan}
      (phase : s.scan = some (.visiting p (a :: rest))) (going : p.stopped = false)
      (examined : (s.resume p).Examined a next none) : ScanTransition .proceed (s.adopt next rest)
  | begunCall {p : ScanProgress} {a : Agreement} {rest : List Agreement} {next : Scan}
      {constraintId : String} (phase : s.scan = some (.visiting p (a :: rest)))
      (going : p.stopped = false)
      (examined : (s.resume p).Examined a next (some constraintId)) :
      ScanTransition .proceed
        { s with
          toTraffic := s.ask a.agreementId (ReasonCode.violationReason constraintId) monitorActor
          monitor := next.monitor
          scan := some (.waiting next.progress a.agreementId s.calls.length rest) }
  | settled {p : ScanProgress} {agreementId : String} {place : Nat} {rest : List Agreement}
      {reply : Reply Receipt} (phase : s.scan = some (.waiting p agreementId place rest))
      (done : s.calls[place]? = some (.done reply)) :
      ScanTransition .settle (s.conclude p agreementId rest (.answered reply))
  | givenUp {p : ScanProgress} {agreementId : String} {place : Nat} {rest : List Agreement}
      {call : RetireCall} (phase : s.scan = some (.waiting p agreementId place rest))
      (begun : s.calls[place]? = some call) :
      ScanTransition .giveUp (s.conclude p agreementId rest (.stalled call))

variable {s : System} {act : Act} {acts : List Act}

/-! ## Lists collected along a run -/

section
variable {α : Type} (f : System → Act → List α)

theorem collect_append (before after : List Act) :
    s.collect f (before ++ after) = s.collect f before ++ (s.run before).collect f after := by
  induction before generalizing s with
  | nil => rfl
  | cons act rest ih => simp only [List.cons_append, collect, ih, List.append_assoc, run_cons]

@[simp] theorem collect_concat (acts : List Act) (act : Act) :
    s.collect f (acts ++ [act]) = s.collect f acts ++ f (s.run acts) act := by
  rw [collect_append]
  simp [collect]

theorem collect_concat_of_nil {f : System → Act → List α} (nothing : f (s.run acts) act = []) :
    s.collect f (acts ++ [act]) = s.collect f acts := by
  rw [collect_concat, nothing, List.append_nil]

theorem mem_collect {x : α} : x ∈ s.collect f acts ↔
    ∃ earlier act later, acts = earlier ++ act :: later ∧ x ∈ f (s.run earlier) act := by
  constructor
  · induction acts generalizing s with
    | nil => simp [collect]
    | cons first rest ih =>
        intro member
        rcases List.mem_append.mp member with here | there
        · exact ⟨[], first, rest, rfl, here⟩
        · obtain ⟨earlier, act, later, rfl, shown⟩ := ih there
          exact ⟨first :: earlier, act, later, rfl, shown⟩
  · rintro ⟨earlier, act, later, rfl, shown⟩
    rw [collect_append]
    exact List.mem_append_right _ (List.mem_append_left _ shown)

end

theorem listed_concat (acts : List Act) (act : Act) :
    s.listed (acts ++ [act]) = ((s.run acts).handed? act).or (s.listed acts) := by
  induction acts generalizing s with
  | nil => simp [listed]
  | cons first rest ih => rw [List.cons_append, listed, ih, listed, Option.or_assoc, run_cons]

theorem scanning_concat (acts : List Act) (act : Act) :
    s.scanning (acts ++ [act]) = (s.scanning acts && ((s.run acts).step act).scan.isSome) := by
  induction acts generalizing s with
  | nil => rfl
  | cons first rest ih => simp only [List.cons_append, scanning, ih, Bool.and_assoc, run_cons]

theorem isSome_of_scanning (scanning : s.scanning acts = true) : (s.run acts).scan.isSome = true := by
  induction acts generalizing s with
  | nil => exact scanning
  | cons first rest ih => exact ih (Bool.and_eq_true_iff.mp scanning).2

theorem scanning_of_append {before after : List Act} (scanning : s.scanning (before ++ after) = true) :
    s.scanning before = true := by
  induction before generalizing s with
  | nil =>
      cases after with
      | nil => exact scanning
      | cons act rest => exact (Bool.and_eq_true_iff.mp scanning).1
  | cons first rest ih =>
      obtain ⟨here, later⟩ := Bool.and_eq_true_iff.mp scanning
      exact Bool.and_eq_true_iff.mpr ⟨here, ih later⟩

/-! ## While the scan goes on -/

theorem visited_proceed {p : ScanProgress} {a : Agreement} {rest : List Agreement}
    (phase : s.scan = some (.visiting p (a :: rest))) (going : p.stopped = false) :
    s.visited .proceed = [a] := by
  simp only [visited, phase, going, Bool.false_eq_true, if_false]

theorem visited_of_idle (same : s.step act = s) : s.visited act = [] := by
  cases act with
  | proceed =>
      simp only [visited]
      split
      · next p a rest phase =>
          cases stopRequested : p.stopped with
          | true => rfl
          | false =>
              -- The scan would have one agreement less before it.
              have moved : (s.proceed p (a :: rest)).scan = s.scan := by
                simpa only [step, phase] using congrArg System.scan same
              simp only [proceed, stopRequested, Bool.false_eq_true, if_false, phase] at moved
              revert moved
              rcases (s.resume p).examine a with ⟨next, _ | constraintId⟩ <;> intro moved <;>
                simp [adopt] at moved
      · rfl
  | _ => rfl

theorem answered_of_idle (same : s.step act = s) : s.answered act = [] := by
  cases act with
  | settle =>
      simp only [answered]
      split
      · next p id place rest phase =>
          cases here : s.calls[place]? with
          | none => rfl
          | some call =>
              cases call with
              | done reply =>
                  have moved : (s.conclude p id rest (.answered reply)).scan = s.scan := by
                    simpa only [step, phase, here] using congrArg System.scan same
                  rw [phase] at moved
                  cases moved
              | _ => rfl
      · rfl
  | _ => rfl

theorem asked_of_idle (same : s.step act = s) : s.asked act = [] := by
  cases act with
  | proceed => simp [asked, same]
  | _ => rfl

theorem scanTransition (countsScans : s.CountsScans) (before : s.scan.isSome = true)
    (goesOn : (s.step act).scan.isSome = true) : s.ScanTransition act (s.step act) := by
  have transition := s.transition act
  generalize same : s.step act = after at transition goesOn ⊢
  cases transition with
  | idle notHanded =>
      by_cases stopRequested : act = .stop
      · subst stopRequested
        have stopped : s.ScanTransition .stop (s.step .stop) := .stopRequested
        rwa [same] at stopped
      · exact .unrelated rfl rfl notHanded (visited_of_idle same) (asked_of_idle same)
          (answered_of_idle same) stopRequested
  | traffic act => exact .unrelated rfl rfl rfl rfl rfl rfl (by simp)
  | refusedBusy busy => exact .unrelated rfl rfl rfl rfl rfl rfl (by simp)
  | entered free =>
      rw [countsScans.guarded, before] at free
      cases free
  | aborted phase failed => cases goesOn
  | listed phase answer => exact .listed phase answer
  | ended phase => cases goesOn
  | cancelled phase stopRequested => cases goesOn
  | passed phase going examined => exact .passed phase going examined
  | begunCall phase going examined => exact .begunCall phase going examined
  | settled phase done => exact .settled phase done
  | givenUp phase begun => exact .givenUp phase begun
  | stopped => exact .stopRequested

/-- An invariant of the phase that holds when a scan begins, and is kept by each transition, holds as long as the
scan goes on. -/
theorem scan_induction {Q : List Act → ScanPhase → Prop} {startedAt : Instant} (reachable : s.Reachable)
    (begun : s.scan = some (.listing startedAt false)) (first : Q [] (.listing startedAt false))
    (next : ∀ {earlier : List Act} {act : Act} {after : System}, (s.run earlier).ScanTransition act after →
      (s.run earlier).step act = after →
      (∀ phase, (s.run earlier).scan = some phase → Q earlier phase) →
      ∀ phase, after.scan = some phase → Q (earlier ++ [act]) phase)
    (scanning : s.scanning acts = true) : ∀ phase, (s.run acts).scan = some phase → Q acts phase := by
  induction acts using List.reverseRecOn with
  | nil =>
      intro phase here
      rw [run_nil, begun] at here
      cases here
      exact first
  | append_singleton earlier act ih =>
      have before := scanning_of_append scanning
      rw [scanning_concat, before, Bool.true_and] at scanning
      rw [run_concat]
      have here := scanTransition (reachable.run earlier).countsScans (isSome_of_scanning before) scanning
      exact next here rfl (ih before)

theorem isStopped_iff (reachable : s.Reachable) {startedAt : Instant}
    (begun : s.scan = some (.listing startedAt false)) (scanning : s.scanning acts = true) :
    ∀ phase, (s.run acts).scan = some phase → (phase.isStopped = true ↔ .stop ∈ acts) := by
  refine scan_induction (Q := fun acts phase => (phase.isStopped = true ↔ .stop ∈ acts))
    reachable begun ?_ ?_ scanning
  · simp [ScanPhase.isStopped]
  · intro earlier act after scanTransition same before phase here
    have unmoved {p q : ScanPhase} (phase : (s.run earlier).scan = some p)
        (same : q.isStopped = p.isStopped) (notStop : act ≠ .stop) :
        q.isStopped = true ↔ .stop ∈ earlier ++ [act] := by
      rw [same, before p phase]
      simp [Ne.symm notStop]
    cases scanTransition with
    | unrelated scan watch notHanded noVisit unasked unanswered notStop =>
        rw [scan] at here
        exact unmoved here rfl notStop
    | stopRequested =>
        obtain ⟨p, -, rfl⟩ := Option.map_eq_some_iff.mp here
        cases p <;> simp [ScanPhase.stop, ScanPhase.isStopped]
    | listed phase answer =>
        cases here
        exact unmoved phase rfl (by simp)
    | passed phase going examined =>
        cases here
        exact unmoved phase examined.frame.2.1 (by simp)
    | begunCall phase going examined =>
        cases here
        exact unmoved phase examined.frame.2.1 (by simp)
    | settled phase done =>
        cases here
        exact unmoved phase (Scan.conclude_frame _ _ _).2.1 (by simp)
    | givenUp phase begun =>
        cases here
        exact unmoved phase (Scan.conclude_frame _ _ _).2.1 (by simp)

/-! ## How far the scan has come -/

/-- The scan has visited what it was handed except `rest`; `underWay` is 1 while it waits for a call and 0
otherwise. -/
structure VisitedUpTo (s : System) (acts : List Act) (p : ScanProgress) (rest : List Agreement)
    (underWay : Nat) : Prop where
  listed : s.listed acts = some (s.collect visited acts ++ rest)
  length : p.report.listed = (s.collect visited acts ++ rest).length
  hasVisited : ((s.run acts).resume p).HasVisited s.monitor.watch (s.collect visited acts)
    (s.collect newEntries acts).length (s.collect skipped acts).length underWay

/-- What the acts since the scan began have to do with the phase that it is in. -/
def VisitInvariant (s : System) (acts : List Act) : ScanPhase → Prop
  | .listing _ _ =>
    (s.run acts).monitor.watch = s.monitor.watch ∧ s.collect visited acts = [] ∧
      s.collect newEntries acts = [] ∧ s.collect skipped acts = []
  | .visiting p rest => s.VisitedUpTo acts p rest 0
  | .waiting p agreementId _ rest =>
    s.VisitedUpTo acts p rest 1 ∧ ∃ a ∈ s.collect visited acts, a.agreementId = agreementId

theorem skipped_of_noVisit (noVisit : s.visited act = []) : s.skipped act = [] := by
  rw [skipped, noVisit, List.filter_nil]

theorem newEntries_of_watch (watch : (s.step act).monitor.watch = s.monitor.watch) :
    s.newEntries act = [] := by
  rw [newEntries, watch]
  exact Catalog.gained_eq_nil fun _ present => present

theorem VisitInvariant.unrelated {phase : ScanPhase} (visitInvariant : s.VisitInvariant acts phase)
    (watch : ((s.run acts).step act).monitor.watch = (s.run acts).monitor.watch)
    (notHanded : (s.run acts).handed? act = none) (noVisit : (s.run acts).visited act = []) :
    s.VisitInvariant (acts ++ [act]) phase := by
  have visited := collect_concat_of_nil noVisit
  have skipped := collect_concat_of_nil (skipped_of_noVisit noVisit)
  have newEntries := collect_concat_of_nil (newEntries_of_watch watch)
  have run : s.run (acts ++ [act]) = (s.run acts).step act := run_concat acts act
  have visitedUpTo {p : ScanProgress} {rest : List Agreement} {underWay : Nat}
      (before : s.VisitedUpTo acts p rest underWay) : s.VisitedUpTo (acts ++ [act]) p rest underWay := by
    refine ⟨?_, ?_, ?_⟩
    · rw [listed_concat, notHanded, Option.none_or, visited, before.listed]
    · rw [visited, before.length]
    · rw [visited, newEntries, skipped, run]
      exact before.hasVisited.congr watch rfl rfl
  cases phase with
  | listing startedAt stopped =>
      obtain ⟨table, noneVisited, noNewEntries, noneSkipped⟩ := visitInvariant
      exact ⟨(congrArg (·.monitor.watch) run).trans (watch.trans table), visited.trans noneVisited,
        newEntries.trans noNewEntries, skipped.trans noneSkipped⟩
  | visiting p rest => exact visitedUpTo visitInvariant
  | waiting p id place rest => exact ⟨visitedUpTo visitInvariant.1, visited.symm ▸ visitInvariant.2⟩

theorem VisitedUpTo.examined {p : ScanProgress} {a : Agreement} {rest : List Agreement} {next : Scan}
    {constraintId : Option String} (visitedUpTo : s.VisitedUpTo acts p (a :: rest) 0)
    (phase : (s.run acts).scan = some (.visiting p (a :: rest))) (going : p.stopped = false)
    (examined : ((s.run acts).resume p).Examined a next constraintId)
    (watch : ((s.run acts).step .proceed).monitor.watch = next.monitor.watch) :
    s.VisitedUpTo (acts ++ [.proceed]) next.progress rest constraintId.toList.length ∧
      a ∈ s.collect visited (acts ++ [.proceed]) := by
  have here := visited_proceed phase going
  have visited : s.collect visited (acts ++ [.proceed]) = s.collect visited acts ++ [a] := by simp [here]
  have skipped : (s.collect skipped (acts ++ [.proceed])).length =
      (s.collect skipped acts).length + (((s.run acts).resume p).skips a).toNat := by
    rw [collect_concat, List.length_append, skipped, here]
    refine congrArg _ ?_
    change (List.filter ((s.run acts).resume p).skips [a]).length = _
    cases skips : ((s.run acts).resume p).skips a <;> simp [skips]
  have newEntries : (s.collect newEntries (acts ++ [.proceed])).length = (s.collect newEntries acts).length +
      (Catalog.gained (s.run acts).monitor.watch next.monitor.watch).length := by
    rw [collect_concat, List.length_append, newEntries, watch]
  have run : s.run (acts ++ [.proceed]) = (s.run acts).step .proceed := run_concat acts _
  refine ⟨⟨?_, ?_, ?_⟩, by simp [visited]⟩
  · rw [listed_concat, visited, visitedUpTo.listed]
    simp [handed?]
  · rw [visited, List.append_assoc]
    exact examined.listed.trans visitedUpTo.length
  · rw [visited, skipped, newEntries, run]
    exact (examined.hasVisited visitedUpTo.hasVisited).congr watch rfl rfl

theorem VisitedUpTo.conclude {p : ScanProgress} {id : String} {rest : List Agreement} {attempt : Attempt}
    (visitedUpTo : s.VisitedUpTo acts p rest 1)
    (met : ∃ a ∈ s.collect System.visited acts, a.agreementId = id)
    (noVisit : (s.run acts).visited act = []) (notHanded : (s.run acts).handed? act = none)
    (here : (s.run acts).step act = (s.run acts).conclude p id rest attempt) :
    s.VisitedUpTo (acts ++ [act])
      (((s.run acts).resume p).conclude id (attempt.result (s.run acts).monitor.config)).progress rest 0 := by
  have visited := collect_concat_of_nil noVisit
  have skipped := collect_concat_of_nil (skipped_of_noVisit noVisit)
  have newEntries : s.collect newEntries (acts ++ [act]) = s.collect newEntries acts := by
    have none_gained := (((s.run acts).resume p).conclude_gained id
      (attempt.result (s.run acts).monitor.config)).1
    rw [collect_concat, newEntries, here]
    exact List.append_right_eq_self.mpr none_gained
  have run : s.run (acts ++ [act]) = (s.run acts).conclude p id rest attempt :=
    (run_concat acts act).trans here
  refine ⟨?_, ?_, ?_⟩
  · rw [listed_concat, notHanded, Option.none_or, visited, visitedUpTo.listed]
  · rw [visited]
    exact (Scan.conclude_listed _ _ _).trans visitedUpTo.length
  · rw [visited, newEntries, skipped, run]
    exact (Scan.conclude_hasVisited visitedUpTo.hasVisited met _).congr rfl rfl rfl

theorem visitInvariant (reachable : s.Reachable) {startedAt : Instant}
    (begun : s.scan = some (.listing startedAt false)) (scanning : s.scanning acts = true) :
    ∀ phase, (s.run acts).scan = some phase → s.VisitInvariant acts phase := by
  refine scan_induction (Q := s.VisitInvariant) reachable begun ⟨rfl, rfl, rfl, rfl⟩ ?_ scanning
  intro earlier act after scanTransition same before phase here
  have run : s.run (earlier ++ [act]) = after := (run_concat earlier act).trans same
  cases scanTransition with
  | unrelated scan watch notHanded noVisit unasked unanswered notStop =>
      rw [scan] at here
      exact (before phase here).unrelated (same ▸ watch) notHanded noVisit
  | stopRequested =>
      obtain ⟨p, scan, rfl⟩ := Option.map_eq_some_iff.mp here
      -- Only the mark is set, which nothing here depends on.
      have visitInvariant : s.VisitInvariant (earlier ++ [.stop]) p := (before p scan).unrelated rfl rfl rfl
      cases p with
      | listing startedAt stopped => exact visitInvariant
      | visiting p rest =>
          exact ⟨visitInvariant.listed, visitInvariant.length,
            visitInvariant.hasVisited.congr rfl rfl rfl⟩
      | waiting p id place rest =>
          obtain ⟨visitedUpTo, met⟩ := visitInvariant
          exact ⟨⟨visitedUpTo.listed, visitedUpTo.length, visitedUpTo.hasVisited.congr rfl rfl rfl⟩, met⟩
  | @listed startedAt stopped listing agreements phase' answer =>
      cases here
      obtain ⟨table, noneVisited, noNewEntries, noneSkipped⟩ := before _ phase'
      have watch : (s.run (earlier ++ [.list listing])).monitor.watch = s.monitor.watch := by
        rw [run, ← table]
      have handed : (s.run earlier).handed? (.list listing) = some agreements := by
        simp only [handed?, phase', answer, Except.toOption]
      have visited : s.collect visited (earlier ++ [.list listing]) = [] :=
        (collect_concat_of_nil rfl).trans noneVisited
      have skipped : s.collect skipped (earlier ++ [.list listing]) = [] :=
        (collect_concat_of_nil rfl).trans noneSkipped
      have newEntries : s.collect newEntries (earlier ++ [.list listing]) = [] :=
        (collect_concat_of_nil (newEntries_of_watch (by rw [same]))).trans noNewEntries
      refine ⟨?_, ?_, ?_⟩
      · rw [listed_concat, handed, visited]
        rfl
      · rw [visited]
        rfl
      · rw [visited, newEntries, skipped]
        refine ⟨rfl, rfl, ?_, ?_, Scan.balances_start _ _⟩
        · change WatchTable.ReflectsVisits (s.run _).monitor.watch _ _
          rw [watch]
          exact WatchTable.reflectsVisits_nil _
        · change 0 + (s.run _).monitor.watch.size = _
          rw [watch, Nat.zero_add]
          rfl
  | passed phase' going examined =>
      cases here
      exact ((before _ phase').examined phase' going examined (by rw [same]; rfl)).1
  | begunCall phase' going examined =>
      cases here
      obtain ⟨visitedUpTo, met⟩ := VisitedUpTo.examined (before _ phase') phase' going examined (by rw [same])
      exact ⟨visitedUpTo, _, met, rfl⟩
  | settled phase' done =>
      cases here
      obtain ⟨visitedUpTo, met⟩ := before _ phase'
      exact visitedUpTo.conclude met rfl rfl same
  | givenUp phase' begun' =>
      cases here
      obtain ⟨visitedUpTo, met⟩ := before _ phase'
      exact visitedUpTo.conclude met rfl rfl same

/-! ## When the scan is over -/

variable {report : ScanReport}

def closing (s : System) (p : ScanProgress) (rest : List Agreement) : Scan :=
  (s.resume p).mapReport fun r => { r with cancelled := r.cancelled || !rest.isEmpty }

theorem closing_nil (s : System) (p : ScanProgress) : s.closing p [] = s.resume p := by
  simp [closing, Scan.mapReport]

theorem exists_closing
    (completes : (s.step .proceed).outcomes = s.outcomes ++ [.ok (.completed report)]) :
    ∃ p rest, s.scan = some (.visiting p rest) ∧ (rest = [] ∨ p.stopped = true) ∧
      s.step .proceed = s.finish (s.closing p rest) ∧ report = (s.closing p rest).prune.close.report := by
  have transition := s.transition .proceed
  generalize same : s.step .proceed = after at transition completes ⊢
  have finished {sc : Scan} (completes : (s.finish sc).outcomes = s.outcomes ++ [.ok (.completed report)]) :
      report = sc.prune.close.report := by
    have ends := List.append_cancel_left completes
    cases ends
    rfl
  cases transition with
  | idle notHanded => simp at completes
  | @ended p phase =>
      rw [← closing_nil] at completes ⊢
      exact ⟨p, [], phase, .inl rfl, rfl, finished completes⟩
  | @cancelled p a rest phase stopRequested =>
      have cut : (s.resume p).mapReport (fun r => { r with cancelled := true }) = s.closing p (a :: rest) := by
        simp [closing, Scan.mapReport]
      rw [cut] at completes ⊢
      exact ⟨p, a :: rest, phase, .inr stopRequested, rfl, finished completes⟩
  | passed phase going examined => simp [adopt] at completes
  | begunCall phase going examined => simp at completes

theorem step_enter (free : s.monitor.busy = false) :
    s.step .enter =
      { s with
        monitor := { s.monitor with busy := true }
        scan := some (.listing s.service.clock false) } := by
  simp only [step, enter, Monitor.enter, free, Bool.false_eq_true, if_false]

theorem run_wholeScan (s : System) (acts : List Act) :
    s.run (Act.wholeScan acts) = ((s.step .enter).run acts).step .proceed := by
  simp [Act.wholeScan, run_append]

/-- The state of a scan when it completes. -/
structure Closes (s : System) (acts : List Act) (report : ScanReport) (p : ScanProgress)
    (rest : List Agreement) : Prop where
  phase : (s.run acts).scan = some (.visiting p rest)
  cause : rest = [] ∨ p.stopped = true
  stopRequested : p.stopped = true ↔ .stop ∈ acts
  visitedUpTo : s.VisitedUpTo acts p rest 0
  after : (s.run acts).step .proceed = (s.run acts).finish ((s.run acts).closing p rest)
  report : report = ((s.run acts).closing p rest).prune.close.report

variable {agreements : List Agreement}

theorem Scans.begun (scans : s.Scans acts agreements report) :
    (s.step .enter).scan = some (.listing s.service.clock false) := by
  rw [step_enter scans.free]

theorem Scans.closes (scans : s.Scans acts agreements report) (reachable : s.Reachable) :
    ∃ p rest, (s.step .enter).Closes acts report p rest := by
  have reachable' : (s.step .enter).Reachable := reachable.run [.enter]
  have completes := scans.completes
  rw [run_wholeScan] at completes
  obtain ⟨p, rest, phase, cause, after, report⟩ := exists_closing completes
  exact ⟨p, rest, phase, cause, isStopped_iff reachable' scans.begun scans.scanning _ phase,
    visitInvariant reachable' scans.begun scans.scanning _ phase, after, report⟩

section
variable {p : ScanProgress} {rest : List Agreement}

theorem Scans.listing (scans : s.Scans acts agreements report)
    (closes : (s.step .enter).Closes acts report p rest) :
    agreements = (s.step .enter).collect visited acts ++ rest :=
  Option.some.inj (scans.listed.symm.trans closes.visitedUpTo.listed)

theorem Closes.noVisit (closes : s.Closes acts report p rest) : (s.run acts).visited .proceed = [] := by
  simp only [visited, closes.phase]
  rcases closes.cause with rfl | stopRequested
  · rfl
  · cases rest with
    | nil => rfl
    | cons a rest => exact if_pos stopRequested

theorem Closes.newEntries (closes : s.Closes acts report p rest) :
    (s.run acts).newEntries .proceed = [] := by
  rw [System.newEntries, closes.after]
  exact ((s.run acts).closing p rest).prune_close_gained

theorem Closes.counts (closes : s.Closes acts report p rest) :
    report =
      { p.report with
        finishedAt := report.finishedAt, removed := report.removed, cancelled := report.cancelled } := by
  have counts := ((s.run acts).closing p rest).prune_close_counts
  have marked := ((s.run acts).closing p rest).prune_close_frame.2.2.2
  rw [← closes.report] at counts marked
  refine counts.trans ?_
  rw [marked]
  rfl

theorem Closes.cancelled (closes : s.Closes acts report p rest) : report.cancelled = !rest.isEmpty := by
  have marked := ((s.run acts).closing p rest).prune_close_frame.2.2.2
  have whole : p.report.cancelled = false := closes.visitedUpTo.hasVisited.whole
  rw [closes.report, marked]
  simp [closing, Scan.mapReport, resume, whole]

theorem Closes.rest_eq_nil (closes : s.Closes acts report p rest) (notCancelled : report.cancelled = false) :
    rest = [] := by
  rw [closes.cancelled] at notCancelled
  simpa using notCancelled

theorem Closes.listed (closes : s.Closes acts report p rest) :
    report.listed = (s.collect visited acts ++ rest).length :=
  (congrArg (·.listed) closes.counts).trans closes.visitedUpTo.length

theorem Closes.balances (closes : s.Closes acts report p rest) :
    Scan.Balances report (s.collect visited acts) (s.collect skipped acts).length 0 := by
  obtain ⟨violations, bounded, seen⟩ := closes.visitedUpTo.hasVisited.balances
  rw [closes.counts]
  exact ⟨violations, bounded, seen⟩

theorem Closes.calls (closes : s.Closes acts report p rest) :
    ((s.run acts).step .proceed).calls = (s.run acts).calls := by
  rw [closes.after]
  rfl

theorem Closes.unasked (closes : s.Closes acts report p rest) : (s.run acts).asked .proceed = [] := by
  rw [asked, closes.calls]
  exact if_neg (Nat.lt_irrefl _)

theorem Closes.watch (closes : s.Closes acts report p rest) :
    ((s.run acts).step .proceed).monitor.watch =
      if report.cancelled then (s.run acts).monitor.watch
      else (s.run acts).monitor.watch.retain p.listedIds.contains := by
  rw [closes.after, closes.report, (Scan.prune_close_frame _).2.2.2]
  exact Scan.prune_close_watch _

theorem Scans.leaves_free (scans : s.Scans acts agreements report) (reachable : s.Reachable) :
    (s.run (Act.wholeScan acts)).monitor.busy = false := by
  obtain ⟨p, rest, closes⟩ := scans.closes reachable
  rw [run_wholeScan, closes.after]
  rfl

theorem Closes.contains_listedIds (closes : s.Closes acts report p rest) (id : String) :
    p.listedIds.contains id = true ↔ ∃ a ∈ s.collect visited acts, a.agreementId = id := by
  have ids : p.listedIds = _ := closes.visitedUpTo.hasVisited.ids
  rw [ids]
  simp

theorem Closes.find? (closes : s.Closes acts report p rest) (notCancelled : report.cancelled = false)
    (id : String) :
    ((s.run acts).step .proceed).monitor.watch.find? id =
      if p.listedIds.contains id then (s.run acts).monitor.watch.find? id else none := by
  rw [closes.watch, notCancelled]
  exact Catalog.find?_retain _ _ _

end

theorem collect_wholeScan {α : Type} {f : System → Act → List α} (entering : f s .enter = [])
    (closing : f ((s.step .enter).run acts) .proceed = []) :
    s.collect f (Act.wholeScan acts) = (s.step .enter).collect f acts := by
  rw [Act.wholeScan, collect_append, run_cons, collect, entering]
  simp [collect, closing]

end System

end RetirementLedger

import RetirementLedger.Proofs.Monitor.Steps
import RetirementLedger.Proofs.System.Basic

namespace RetirementLedger

namespace System

variable {s : System}

section Phases
variable (sc : Scan) (agreementId : String) (place : Nat) (rest : List Agreement)
  (calls : List RetireCall) (log : List Event) (outcomes : List (Except Failure ScanOutcome))

def visiting : System :=
  { service := sc.service
    calls
    log
    monitor := sc.monitor
    scan := some (.visiting sc.progress rest)
    outcomes }

def waiting : System :=
  { visiting sc rest calls log outcomes with
    scan := some (.waiting sc.progress agreementId place rest) }

def scanned : System :=
  { visiting sc [] calls log outcomes with
    monitor := sc.prune.close.monitor
    scan := none
    outcomes := outcomes ++ [.ok (.completed sc.prune.close.report)] }

variable {sc agreementId place rest calls log outcomes}

theorem finish_visiting {last : Scan} (service : last.service = sc.service) :
    (visiting sc rest calls log outcomes).finish (last.withPending []) =
      scanned last calls log outcomes := by
  simp only [finish, Scan.prune_withPending, scanned, visiting, service]
  rfl

theorem proceed_nil :
    (visiting sc [] calls log outcomes).step .proceed = scanned sc calls log outcomes :=
  finish_visiting rfl

theorem proceed_stopped {a : Agreement} (stopped : sc.stopped = true) :
    (visiting sc (a :: rest) calls log outcomes).step .proceed =
      scanned (sc.mapReport fun r => { r with cancelled := true }) calls log outcomes := by
  change proceed (visiting sc (a :: rest) calls log outcomes) sc.progress (a :: rest) = _
  have stopRequested : sc.progress.stopped = true := stopped
  simp only [proceed, stopRequested, if_true]
  change finish _ ((sc.mapReport fun r => { r with cancelled := true }).withPending []) = _
  exact finish_visiting rfl

theorem proceed_none {a : Agreement} {next : Scan} (going : sc.stopped = false)
    (examined : sc.examine a = (next, none)) :
    (visiting sc (a :: rest) calls log outcomes).step .proceed =
      visiting next rest calls log outcomes := by
  change proceed (visiting sc (a :: rest) calls log outcomes) sc.progress (a :: rest) = _
  have notStop : sc.progress.stopped = false := going
  have resumed : (visiting sc (a :: rest) calls log outcomes).resume sc.progress =
      sc.withPending [] := rfl
  have service := (sc.examined a).frame.1
  rw [examined] at service
  dsimp only at service
  simp only [proceed, notStop, Bool.false_eq_true, if_false]
  rw [resumed, Scan.examine_withPending, examined]
  simp only [adopt, visiting, ← service]
  rfl

theorem proceed_some {a : Agreement} {next : Scan} {constraintId : String}
    (going : sc.stopped = false) (examined : sc.examine a = (next, some constraintId)) :
    (visiting sc (a :: rest) calls log outcomes).step .proceed =
      waiting next a.agreementId calls.length rest
        (calls ++ [.asked a.agreementId (ReasonCode.violationReason constraintId) monitorActor]) log
        outcomes := by
  change proceed (visiting sc (a :: rest) calls log outcomes) sc.progress (a :: rest) = _
  have notStop : sc.progress.stopped = false := going
  have resumed : (visiting sc (a :: rest) calls log outcomes).resume sc.progress =
      sc.withPending [] := rfl
  have service := (sc.examined a).frame.1
  rw [examined] at service
  dsimp only at service
  simp only [proceed, notStop, Bool.false_eq_true, if_false]
  rw [resumed, Scan.examine_withPending, examined]
  simp only [waiting, visiting, service]
  rfl

theorem run_stop (stops : Bool) :
    (waiting sc agreementId place rest calls log outcomes).run (if stops then [.stop] else []) =
      waiting { sc with stopped := sc.stopped || stops } agreementId place rest calls log
        outcomes := by
  cases stops with
  | true =>
      simp only [if_true, Bool.or_true]
      rfl
  | false =>
      simp only [Bool.false_eq_true, if_false, Bool.or_false]
      rfl

theorem conclude_waiting (attempt : Attempt) :
    (waiting sc agreementId place rest calls log outcomes).conclude sc.progress agreementId rest
        attempt =
      visiting (sc.conclude agreementId (attempt.result sc.monitor.config)) rest calls log
        outcomes := by
  have service := (sc.conclude_frame agreementId (attempt.result sc.monitor.config)).1
  change adopt _ ((sc.withPending []).conclude agreementId _) rest = _
  rw [Scan.conclude_withPending]
  simp only [adopt, visiting, service]
  rfl

theorem settle_waiting {reply : Reply Receipt} (done : calls[place]? = some (.done reply)) :
    (waiting sc agreementId place rest calls log outcomes).step .settle =
      visiting (sc.conclude agreementId ((Attempt.answered reply).result sc.monitor.config)) rest
        calls log outcomes := by
  rw [← conclude_waiting]
  have phase : (waiting sc agreementId place rest calls log outcomes).scan =
      some (.waiting sc.progress agreementId place rest) := rfl
  have here : (waiting sc agreementId place rest calls log outcomes).calls[place]? =
      some (.done reply) := done
  simp only [step, phase, here]
  rfl

theorem giveUp_waiting {call : RetireCall} (begun : calls[place]? = some call) :
    (waiting sc agreementId place rest calls log outcomes).step .giveUp =
      visiting (sc.conclude agreementId ((Attempt.stalled call).result sc.monitor.config)) rest
        calls log outcomes := by
  rw [← conclude_waiting]
  have phase : (waiting sc agreementId place rest calls log outcomes).scan =
      some (.waiting sc.progress agreementId place rest) := rfl
  have here : (waiting sc agreementId place rest calls log outcomes).calls[place]? = some call :=
    begun
  simp only [step, phase, here]
  rfl

theorem run_traffic_waiting (sc : Scan) (acts : List Traffic.Act) {service : Service} {calls' : List RetireCall}
    {log' : List Event} (traffic : Traffic.run ⟨sc.service, calls, log⟩ acts = ⟨service, calls', log'⟩) :
    (waiting sc agreementId place rest calls log outcomes).run (acts.map .traffic) =
      waiting { sc with service } agreementId place rest calls' log' outcomes := by
  rw [run_traffic]
  have begun : (waiting sc agreementId place rest calls log outcomes).toTraffic =
      ⟨sc.service, calls, log⟩ := rfl
  rw [begun, traffic]
  rfl

variable (sc agreementId rest calls log outcomes)

theorem run_attempt (constraintId : String) :
    ∃ acts more history,
      (waiting sc agreementId calls.length rest
        (calls ++ [.asked agreementId (ReasonCode.violationReason constraintId) monitorActor]) log
        outcomes).run acts =
        visiting (sc.retireViolator agreementId constraintId) rest (calls ++ more) (log ++ history)
          outcomes ∧
      (sc.retireViolator agreementId constraintId).pending =
        sc.pending ++ more.filter (!·.isDone) := by
  rcases Attempt.make_cases sc.service agreementId constraintId with
    ⟨stops, made⟩ | ⟨stops, valid, -, made⟩
  · obtain ⟨reply, service, retired⟩ : ∃ reply service, sc.service.retire agreementId
        (ReasonCode.violationReason constraintId) monitorActor = (reply, service) := ⟨_, _, rfl⟩
    rw [retired] at made
    have advances := Traffic.run_advance RetireCall.stepCount
      (.asked agreementId (ReasonCode.violationReason constraintId) monitorActor)
      sc.service calls log
    rw [RetireCall.steps_stepCount] at advances
    change _ = Traffic.mk (sc.service.retire _ _ _).2 (calls ++ [.done (sc.service.retire _ _ _).1]) _
      at advances
    rw [retired] at advances
    dsimp only at made advances
    refine ⟨(if stops then [.stop] else []) ++ (List.replicate RetireCall.stepCount
      (.advance calls.length)).map .traffic ++ [.settle], [.done reply],
      RetireCall.history RetireCall.stepCount
        (.asked agreementId (ReasonCode.violationReason constraintId) monitorActor) sc.service, ?_, ?_⟩
    · rw [run_append, run_append, run_stop,
        run_traffic_waiting { sc with stopped := sc.stopped || stops } _ advances]
      have done : (calls ++ [.done reply])[calls.length]? = some (.done reply) :=
        List.getElem?_concat_length
      rw [run_cons, run_nil, settle_waiting done, Scan.retireViolator_eq _ made]
      rfl
    · rw [Scan.retireViolator_eq _ made]
      rfl
  · have advances := Traffic.run_advance 1
      (.asked agreementId (ReasonCode.violationReason constraintId) monitorActor)
      sc.service calls log
    have checked : (RetireCall.asked agreementId (ReasonCode.violationReason constraintId)
        monitorActor).steps 1 sc.service =
          (.checked (Attempt.record sc.service agreementId constraintId), sc.service) := by
      rw [Attempt.record] at valid ⊢
      simp only [RetireCall.steps, RetireCall.step, valid]
    rw [checked] at advances
    refine ⟨(if stops then [.stop] else []) ++ (List.replicate 1
      (.advance calls.length)).map .traffic ++ [.giveUp],
      [.checked (Attempt.record sc.service agreementId constraintId)],
      RetireCall.history 1
        (.asked agreementId (ReasonCode.violationReason constraintId) monitorActor) sc.service, ?_, ?_⟩
    · rw [run_append, run_append, run_stop,
        run_traffic_waiting { sc with stopped := sc.stopped || stops } _ advances]
      rw [run_cons, run_nil, giveUp_waiting (List.getElem?_concat_length ..), Scan.retireViolator_eq _ made]
      rfl
    · rw [Scan.retireViolator_eq _ made]
      rfl

theorem run_visit (a : Agreement) (going : sc.stopped = false) :
    ∃ acts more history,
      (visiting sc (a :: rest) calls log outcomes).run acts =
        visiting (sc.visit a) rest (calls ++ more) (log ++ history) outcomes ∧
      (sc.visit a).pending = sc.pending ++ more.filter (!·.isDone) := by
  have pending := (sc.examined a).frame.2.2.1
  rcases examined : sc.examine a with ⟨next, _ | constraintId⟩
  · simp only [examined] at pending
    refine ⟨[.proceed], [], [], ?_, ?_⟩
    · simp only [run_cons, run_nil, proceed_none going examined, Scan.visit, examined, List.append_nil]
    · simp only [Scan.visit, examined, pending, List.filter_nil, List.append_nil]
  · simp only [examined] at pending
    obtain ⟨acts, more, history, run, left⟩ :=
      run_attempt next a.agreementId rest calls log outcomes constraintId
    refine ⟨.proceed :: acts, more, history, ?_, ?_⟩
    · rw [run_cons, proceed_some going examined, run]
      simp only [Scan.visit, examined]
    · simp only [Scan.visit, examined, left, pending]

theorem run_signal (stops : Bool) :
    (visiting sc rest calls log outcomes).run (if stops then [.stop] else []) =
      visiting { sc with stopped := sc.stopped || stops } rest calls log outcomes := by
  cases stops with
  | true =>
      simp only [if_true, Bool.or_true]
      rfl
  | false =>
      simp only [Bool.false_eq_true, if_false, Bool.or_false]
      rfl

theorem run_visitAll (signal : Nat → Bool) (place : Nat) :
    ∃ acts more history,
      (visiting sc rest calls log outcomes).run acts =
        scanned (sc.visitAll signal place rest) (calls ++ more) (log ++ history) outcomes ∧
      (sc.visitAll signal place rest).pending = sc.pending ++ more.filter (!·.isDone) := by
  induction rest generalizing sc place calls log with
  | nil =>
      refine ⟨[.proceed], [], [], ?_, ?_⟩
      · simp only [run_cons, run_nil, proceed_nil, Scan.visitAll, List.append_nil]
      · simp only [Scan.visitAll, List.filter_nil, List.append_nil]
  | cons a rest ih =>
      cases stopRequested : sc.stopped with
      | true =>
          refine ⟨[.proceed], [], [], ?_, ?_⟩
          · simp only [run_cons, run_nil, proceed_stopped stopRequested, Scan.visitAll,
              stopRequested, if_true, List.append_nil]
          · simp only [Scan.visitAll, stopRequested, if_true, List.filter_nil, List.append_nil]
            rfl
      | false =>
          obtain ⟨acts, more, history, visited, left⟩ :=
            run_visit sc rest calls log outcomes a stopRequested
          have unfolded : sc.visitAll signal place (a :: rest) =
              Scan.visitAll signal (place + 1)
                { sc.visit a with stopped := (sc.visit a).stopped || signal place } rest := by
            simp only [Scan.visitAll, stopRequested, Bool.false_eq_true, if_false]
          obtain ⟨others, others_more, others_history, run, others_left⟩ :=
            ih { sc.visit a with stopped := (sc.visit a).stopped || signal place }
              (calls ++ more) (log ++ history) (place + 1)
          refine ⟨acts ++ (if signal place then [.stop] else []) ++ others, more ++ others_more,
            history ++ others_history, ?_, ?_⟩
          · rw [run_append, run_append, visited, run_signal, run, unfolded]
            simp only [List.append_assoc]
          · rw [unfolded, others_left]
            simp only [left, List.filter_append, List.append_assoc]

end Phases

def listing (s : System) (m : Monitor) (stopped : Bool) : System :=
  { s with monitor := m, scan := some (.listing s.service.clock stopped) }

theorem run_enter {s : System} {m : Monitor} (entered : s.monitor.enter = some m) (early : Bool) :
    s.run (.enter :: if early then [.stop] else []) = listing s m early := by
  have first : s.step .enter = listing s m false := by
    simp only [step, enter, entered]
    rfl
  cases early with
  | true =>
      rw [if_pos rfl, run_cons, run_cons, run_nil, first]
      rfl
  | false => rw [if_neg Bool.false_ne_true, run_cons, run_nil, first]

/-- A scan that goes all its steps at once, as a run. The calls that it leaves behind are those that it
returns as pending. -/
theorem run_scan (s : System) (l : Listing) (signal : StopSignal) :
    let result := s.monitor.scan s.service l signal
    ∃ acts more history,
      s.run acts =
        { s with
          service := result.service
          calls := s.calls ++ more
          log := s.log ++ history
          monitor := result.monitor
          scan := if s.monitor.busy then s.scan else none
          outcomes := s.outcomes ++ [result.outcome] } ∧
      result.pending = more.filter (!·.isDone) := by
  dsimp only
  cases busy : s.monitor.busy with
  | true =>
      have refusedBusy : s.monitor.enter = none := by simp [Monitor.enter, busy]
      rw [Monitor.scan_busy _ busy]
      refine ⟨[.enter], [], [], ?_, rfl⟩
      simp only [run_cons, run_nil, step, enter, refusedBusy, List.append_nil, if_true]
  | false =>
      have entered : s.monitor.enter = some { s.monitor with busy := true } := by
        simp [Monitor.enter, busy]
      have begun := run_enter entered signal.early
      cases answer : l.result s.monitor.config with
      | error f =>
          rw [Monitor.scan_failed _ busy answer]
          refine ⟨(.enter :: if signal.early then [.stop] else []) ++ [.list l], [], [], ?_, rfl⟩
          rw [run_append, begun, run_cons, run_nil]
          simp only [step, listing, list, answer, List.append_nil]
          rfl
      | ok agreements =>
          rw [Monitor.scan_listed _ busy answer]
          obtain ⟨acts, more, history, run, left⟩ := run_visitAll
            (Scan.start s.monitor s.service agreements.length signal.early) agreements s.calls s.log
            s.outcomes signal.during 0
          refine ⟨(.enter :: if signal.early then [.stop] else []) ++ .list l :: acts, more, history,
            ?_, left⟩
          have listed : (listing s { s.monitor with busy := true } signal.early).step (.list l) =
              visiting (Scan.start s.monitor s.service agreements.length signal.early) agreements
                s.calls s.log s.outcomes := by
            simp only [step, listing, list, answer]
            rfl
          rw [run_append, begun, run_cons, listed, run]
          rfl

/-- The acts take a scan from its beginning to its end, and nobody else acts in between. -/
structure ScansAtOnce (s : System) (l : Listing) (signal : StopSignal) (acts : List Act) : Prop where
  service : (s.run acts).service = (s.monitor.scan s.service l signal).service
  monitor : (s.run acts).monitor = (s.monitor.scan s.service l signal).monitor
  outcomes : (s.run acts).outcomes = s.outcomes ++ [(s.monitor.scan s.service l signal).outcome]
  pending : ∃ more, (s.run acts).calls = s.calls ++ more ∧
    (s.monitor.scan s.service l signal).pending = more.filter (!·.isDone)

theorem exists_scansAtOnce (s : System) (l : Listing) (signal : StopSignal) :
    ∃ acts, s.ScansAtOnce l signal acts := by
  obtain ⟨acts, more, history, run, pending⟩ := run_scan s l signal
  exact ⟨acts, by rw [run], by rw [run], by rw [run], more, by rw [run], pending⟩

theorem exists_runs_of_scans {l l' : Listing} {signal signal' : StopSignal}
    (outcome : (s.monitor.scan s.service l signal).outcome =
      (s.monitor.scan s.service l' signal').outcome)
    (monitor : (s.monitor.scan s.service l signal).monitor =
      (s.monitor.scan s.service l' signal').monitor)
    (store : (s.monitor.scan s.service l signal).service.store =
      (s.monitor.scan s.service l' signal').service.store) :
    ∃ acts acts', s.ScansAtOnce l signal acts ∧ s.ScansAtOnce l' signal' acts' ∧
      (s.run acts).store = (s.run acts').store ∧ (s.run acts).monitor = (s.run acts').monitor ∧
      (s.run acts).outcomes = (s.run acts').outcomes := by
  obtain ⟨acts, first⟩ := s.exists_scansAtOnce l signal
  obtain ⟨acts', second⟩ := s.exists_scansAtOnce l' signal'
  refine ⟨acts, acts', first, second, ?_, ?_, ?_⟩
  · rw [Traffic.store, Traffic.store, first.service, second.service, Service.holdings, store]
  · rw [first.monitor, second.monitor, monitor]
  · rw [first.outcomes, second.outcomes, outcome]

end System

end RetirementLedger

import RetirementLedger.Proofs.Monitor.Settled
import RetirementLedger.Proofs.System.Calls

namespace RetirementLedger

namespace System

variable {s : System} {act : Act} {acts : List Act}

theorem run_toTraffic_of_unasked (alone : ∀ act, .traffic act ∉ acts) (unasked : s.collect asked acts = []) :
    (s.run acts).toTraffic = s.toTraffic := by
  induction acts generalizing s with
  | nil => rfl
  | cons act rest ih =>
      obtain ⟨here, later⟩ := List.append_eq_nil_iff.mp unasked
      have same : (s.step act).toTraffic = s.toTraffic := by
        have transition := s.transition act
        generalize step : s.step act = after at transition ⊢
        cases transition with
        | traffic act => exact absurd List.mem_cons_self (alone act)
        | begunCall phase going examined =>
            rw [asked, step] at here
            simp [Traffic.ask] at here
        | _ => rfl
      rw [run_cons, ih (fun act member => alone act (List.mem_cons_of_mem _ member)) later, same]

/-! ## The first scan -/

/-- As long as no attempt fails, all agreements that the scan has done with are settled. -/
def SettledInvariant (s : System) (now : Instant) (acts : List Act) : ScanPhase → Prop
  | .listing _ _ => s.collect visited acts = []
  | .visiting p rest =>
    ((s.collect visited acts ++ rest).map (·.agreementId)).Nodup → p.report.failures = 0 →
      ∀ a ∈ s.collect visited acts, (s.run acts).monitor.watch.Settled now a
  | .waiting p id _ rest =>
    (∃ a ∈ s.collect visited acts, a.agreementId = id ∧ a.status.isMonitored = true ∧
        ((s.run acts).monitor.watch.find? id).isSome = true) ∧
      (((s.collect visited acts ++ rest).map (·.agreementId)).Nodup → p.report.failures = 0 →
        ∀ a ∈ s.collect visited acts, a.agreementId ≠ id → (s.run acts).monitor.watch.Settled now a)

theorem SettledInvariant.unrelated {now : Instant} {phase : ScanPhase}
    (settledInvariant : s.SettledInvariant now acts phase)
    (watch : (s.run (acts ++ [act])).monitor.watch = (s.run acts).monitor.watch)
    (noVisit : (s.run acts).visited act = []) : s.SettledInvariant now (acts ++ [act]) phase := by
  have visited := collect_concat_of_nil noVisit
  cases phase with
  | listing startedAt stopped => exact visited.trans settledInvariant
  | visiting p rest =>
      simp only [SettledInvariant, visited, watch]
      exact settledInvariant
  | waiting p id place rest =>
      simp only [SettledInvariant, visited, watch]
      exact settledInvariant

theorem SettledInvariant.conclude {now : Instant} {p : ScanProgress} {id : String} {place : Nat}
    {rest : List Agreement} {attempt : Attempt}
    (settledInvariant : s.SettledInvariant now acts (.waiting p id place rest))
    (run : s.run (acts ++ [act]) = (s.run acts).conclude p id rest attempt)
    (noVisit : (s.run acts).visited act = []) :
    s.SettledInvariant now (acts ++ [act]) (.visiting
      (((s.run acts).resume p).conclude id (attempt.result (s.run acts).monitor.config)).progress rest) := by
  have visited := collect_concat_of_nil noVisit
  obtain ⟨⟨b, met, rfl, monitored, present⟩, others⟩ := settledInvariant
  simp only [SettledInvariant, visited, run]
  intro distinct noFailures a member
  change (((s.run acts).resume p).conclude b.agreementId
    (attempt.result (s.run acts).monitor.config)).monitor.watch.Settled now a
  generalize attempt.result (s.run acts).monitor.config = result at noFailures ⊢
  cases result with
  | error f => cases noFailures
  | ok receipt =>
      by_cases same : a.agreementId = b.agreementId
      · -- No id comes twice, so this is the agreement that the scan has waited for.
        have nodup : ((s.collect System.visited acts).map (·.agreementId)).Nodup := by
          rw [List.map_append] at distinct
          exact (List.nodup_append.mp distinct).1
        cases List.inj_on_of_nodup_map nodup member met same
        exact Scan.conclude_settled monitored present receipt
      · have noFailures : p.report.failures = 0 := by
          rw [← noFailures]
          cases new : receipt.wasNew <;>
            simp [Scan.progress, Scan.conclude, Scan.mapReport, Scan.mapWatch, resume, new]
        exact (others distinct noFailures a member same).congr (Scan.conclude_others _ same _)

theorem SettledInvariant.examined {now : Instant} {p : ScanProgress} {a : Agreement} {rest : List Agreement}
    {next : Scan} {constraintId : Option String}
    (settledInvariant : s.SettledInvariant now acts (.visiting p (a :: rest)))
    (examined : ((s.run acts).resume p).Examined a next constraintId)
    (distinct : ((s.collect visited acts ++ a :: rest).map (·.agreementId)).Nodup)
    (noFailures : next.report.failures = 0) :
    ∀ b ∈ s.collect visited acts, b.agreementId ≠ a.agreementId ∧ next.monitor.watch.Settled now b := by
  intro b member
  have other : b.agreementId ≠ a.agreementId := by
    intro same
    rw [List.map_append] at distinct
    exact (List.nodup_append.mp distinct).2.2 _ (List.mem_map_of_mem member) _
      (List.mem_map_of_mem List.mem_cons_self) same
  have failures : p.report.failures = 0 := examined.frame.2.2.2.2.1.symm.trans noFailures
  exact ⟨other, (settledInvariant distinct failures b member).congr (examined.others other)⟩

theorem settledInvariant (reachable : s.Reachable) {startedAt : Instant}
    (begun : s.scan = some (.listing startedAt false)) (scanning : s.scanning acts = true)
    (keeping : KeepsClock acts) :
    ∀ phase, (s.run acts).scan = some phase → s.SettledInvariant s.service.clock acts phase := by
  refine fun phase here => scan_induction
    (Q := fun acts phase => KeepsClock acts → s.SettledInvariant s.service.clock acts phase)
    reachable begun (fun _ => rfl) ?_ scanning phase here keeping
  intro earlier act after scanTransition same before phase here keeping
  have kept' := (keepsClock_append.mp keeping).1
  have now : (s.run earlier).service.clock = s.service.clock := run_clock kept'
  have before (p : ScanPhase) (here : (s.run earlier).scan = some p) := before p here kept'
  have run : s.run (earlier ++ [act]) = after := (run_concat earlier act).trans same
  cases scanTransition with
  | unrelated scan watch notHanded noVisit unasked unanswered notStop =>
      rw [scan] at here
      exact (before phase here).unrelated (by rw [run, watch]) noVisit
  | stopRequested =>
      obtain ⟨p, scan, rfl⟩ := Option.map_eq_some_iff.mp here
      have settledInvariant : s.SettledInvariant s.service.clock (earlier ++ [.stop]) p :=
        (before p scan).unrelated (by rw [run]) rfl
      cases p <;> exact settledInvariant
  | @listed startedAt stopped listing agreements phase' answer =>
      cases here
      have visited : s.collect visited (earlier ++ [.list listing]) = [] :=
        (collect_concat_of_nil rfl).trans (before _ phase')
      simp [SettledInvariant, visited]
  | @passed p a rest next phase' going examined =>
      cases here
      simp only [SettledInvariant, collect_concat, visited_proceed phase' going, run, List.append_assoc,
        List.singleton_append]
      intro distinct noFailures b member
      rcases List.mem_append.mp member with old | new
      · exact ((before _ phase').examined examined distinct noFailures b old).2
      · cases List.mem_singleton.mp new
        exact now ▸ examined.settled
  | @begunCall p a rest next constraintId phase' going examined =>
      cases here
      simp only [SettledInvariant, collect_concat, visited_proceed phase' going, run, List.append_assoc,
        List.singleton_append]
      have monitored : a.status.isMonitored = true := by
        cases examined with
        | violated monitored active found => exact monitored
      -- The agreement itself is settled only when the call has ended.
      have present := examined.isSome_iff.mpr (AgreementStatus.isMonitored_iff.mp monitored)
      refine ⟨⟨a, by simp, rfl, monitored, present⟩, fun distinct noFailures b member other => ?_⟩
      · rcases List.mem_append.mp member with old | new
        · exact ((before _ phase').examined examined distinct noFailures b old).2
        · cases List.mem_singleton.mp new
          exact absurd rfl other
  | settled phase' done =>
      cases here
      exact (before _ phase').conclude run rfl
  | givenUp phase' begun' =>
      cases here
      exact (before _ phase').conclude run rfl

variable {agreements : List Agreement} {report : ScanReport}

theorem Scans.settled (scans : s.Scans acts agreements report) (reachable : s.Reachable)
    (distinct : (agreements.map (·.agreementId)).Nodup) (notCancelled : report.cancelled = false)
    (noFailures : report.failures = 0) (keeping : KeepsClock acts) :
    (∀ a ∈ agreements, (s.run (Act.wholeScan acts)).monitor.watch.Settled s.service.clock a) ∧
      ∀ id ∈ (s.run (Act.wholeScan acts)).monitor.watch.names,
        ∃ a ∈ agreements, a.agreementId = id := by
  obtain ⟨p, rest, closes⟩ := scans.closes reachable
  have reachable' : (s.step .enter).Reachable := reachable.run [.enter]
  have now : (s.step .enter).service.clock = s.service.clock := step_clock (by simp)
  obtain rfl := closes.rest_eq_nil notCancelled
  have listing := scans.listing closes
  rw [List.append_nil] at listing
  have failures : p.report.failures = 0 := (congrArg (·.failures) closes.counts).symm.trans noFailures
  have met := settledInvariant reachable' scans.begun scans.scanning keeping _ closes.phase
  simp only [SettledInvariant, List.append_nil, ← listing, now] at met
  have listed := closes.contains_listedIds
  rw [← listing] at listed
  rw [run_wholeScan]
  refine ⟨fun a member => (met distinct failures a member).congr ?_, fun id present => ?_⟩
  · rw [closes.find? notCancelled, if_pos ((listed _).mpr ⟨a, member, rfl⟩)]
  · rw [Catalog.mem_names, closes.find? notCancelled] at present
    split at present
    · next known => exact (listed id).mp known
    · cases present

/-! ## The second scan -/

structure ChangedNothing (s : System) (acts : List Act) (r : ScanReport) : Prop where
  watch : (s.run acts).monitor.watch = s.monitor.watch
  unasked : s.collect asked acts = []
  violations : r.violations = 0
  removed : r.removed = 0
  evaluated : r.evaluated = (s.collect visited acts).countP s.monitor.watch.watches

/-- If every listed agreement is settled, the scan has changed nothing. -/
def UnchangedInvariant (s : System) (acts : List Act) : ScanPhase → Prop
  | .listing _ _ => s.collect visited acts = [] ∧ s.ChangedNothing acts {}
  | .visiting p rest =>
    (∀ a ∈ s.collect visited acts ++ rest, s.monitor.watch.Settled s.service.clock a) →
      s.ChangedNothing acts p.report
  | .waiting _ _ _ rest =>
    ¬ ∀ a ∈ s.collect visited acts ++ rest, s.monitor.watch.Settled s.service.clock a

theorem ChangedNothing.unrelated {r : ScanReport} (changedNothing : s.ChangedNothing acts r)
    (watch : ((s.run acts).step act).monitor.watch = (s.run acts).monitor.watch)
    (noVisit : (s.run acts).visited act = []) (unasked : (s.run acts).asked act = []) :
    s.ChangedNothing (acts ++ [act]) r where
  watch := by
    rw [run_concat]
    exact watch.trans changedNothing.watch
  unasked := by rw [collect_concat, changedNothing.unasked, unasked, List.append_nil]
  violations := changedNothing.violations
  removed := changedNothing.removed
  evaluated := by rw [collect_concat, noVisit, List.append_nil, changedNothing.evaluated]

theorem ChangedNothing.examined {p : ScanProgress} {a : Agreement} {next : Scan}
    {constraintId : Option String}
    (changedNothing : s.ChangedNothing acts p.report) (now : (s.run acts).service.clock = s.service.clock)
    (examined : ((s.run acts).resume p).Examined a next constraintId)
    (settled : s.monitor.watch.Settled s.service.clock a) :
    constraintId = none ∧ next.monitor.watch = s.monitor.watch ∧
      next.report =
        { p.report with evaluated := p.report.evaluated + (s.monitor.watch.watches a).toNat } := by
  have here : (s.run acts).monitor.watch.Settled (s.run acts).service.clock a := by
    rw [changedNothing.watch, now]
    exact settled
  obtain ⟨none, watch, report⟩ := examined.of_settled here
  change next.monitor.watch = (s.run acts).monitor.watch at watch
  change next.report =
    { p.report with
      evaluated := p.report.evaluated + ((s.run acts).monitor.watch.watches a).toNat } at report
  rw [changedNothing.watch] at watch report
  exact ⟨none, watch, report⟩

theorem ChangedNothing.passed {p : ScanProgress} {a : Agreement} {rest : List Agreement} {next : Scan}
    (changedNothing : s.ChangedNothing acts p.report) (now : (s.run acts).service.clock = s.service.clock)
    (phase : (s.run acts).scan = some (.visiting p (a :: rest))) (going : p.stopped = false)
    (examined : ((s.run acts).resume p).Examined a next none)
    (same : (s.run acts).step .proceed = (s.run acts).adopt next rest)
    (settled : s.monitor.watch.Settled s.service.clock a) :
    s.ChangedNothing (acts ++ [.proceed]) next.report := by
  obtain ⟨-, watch, report⟩ := changedNothing.examined now examined settled
  have unasked : (s.run acts).asked .proceed = [] := by
    rw [asked, same]
    exact if_neg (Nat.lt_irrefl _)
  refine ⟨?_, ?_, ?_, ?_, ?_⟩
  · rw [run_concat, same]
    exact watch
  · rw [collect_concat_of_nil unasked, changedNothing.unasked]
  · rw [report, changedNothing.violations]
  · rw [report, changedNothing.removed]
  · rw [collect_concat, visited_proceed phase going, List.countP_append, ← changedNothing.evaluated, report]
    cases watched : s.monitor.watch.watches a <;> simp [watched]

theorem UnchangedInvariant.unrelated {phase : ScanPhase}
    (unchangedInvariant : s.UnchangedInvariant acts phase)
    (watch : ((s.run acts).step act).monitor.watch = (s.run acts).monitor.watch)
    (noVisit : (s.run acts).visited act = []) (unasked : (s.run acts).asked act = []) :
    s.UnchangedInvariant (acts ++ [act]) phase := by
  have visited := collect_concat_of_nil noVisit
  cases phase with
  | listing startedAt stopped =>
      exact ⟨visited.trans unchangedInvariant.1, unchangedInvariant.2.unrelated watch noVisit unasked⟩
  | visiting p rest =>
      simp only [UnchangedInvariant, visited]
      exact fun settled => (unchangedInvariant settled).unrelated watch noVisit unasked
  | waiting p id place rest =>
      simp only [UnchangedInvariant, visited]
      exact unchangedInvariant

theorem unchangedInvariant (reachable : s.Reachable) {startedAt : Instant}
    (begun : s.scan = some (.listing startedAt false)) (scanning : s.scanning acts = true)
    (keeping : KeepsClock acts) :
    ∀ phase, (s.run acts).scan = some phase → s.UnchangedInvariant acts phase := by
  refine fun phase here => scan_induction
    (Q := fun acts phase => KeepsClock acts → s.UnchangedInvariant acts phase)
    reachable begun (fun _ => ⟨rfl, rfl, rfl, rfl, rfl, rfl⟩) ?_ scanning phase here keeping
  intro earlier act after scanTransition same before phase here keeping
  have kept' := (keepsClock_append.mp keeping).1
  have now : (s.run earlier).service.clock = s.service.clock := run_clock kept'
  have before (p : ScanPhase) (here : (s.run earlier).scan = some p) := before p here kept'
  have run : s.run (earlier ++ [act]) = after := (run_concat earlier act).trans same
  cases scanTransition with
  | unrelated scan watch notHanded noVisit unasked unanswered notStop =>
      rw [scan] at here
      exact (before phase here).unrelated (same ▸ watch) noVisit unasked
  | stopRequested =>
      obtain ⟨p, scan, rfl⟩ := Option.map_eq_some_iff.mp here
      have unchangedInvariant : s.UnchangedInvariant (earlier ++ [.stop]) p :=
        (before p scan).unrelated rfl rfl rfl
      cases p <;> exact unchangedInvariant
  | @listed startedAt stopped listing agreements phase' answer =>
      cases here
      obtain ⟨noVisit, changedNothing⟩ := before _ phase'
      intro _
      have changedNothing : s.ChangedNothing (earlier ++ [.list listing]) {} :=
        changedNothing.unrelated (by rw [same]) rfl rfl
      exact ⟨changedNothing.watch, changedNothing.unasked, rfl, rfl, changedNothing.evaluated⟩
  | @passed p a rest next phase' going examined =>
      cases here
      simp only [UnchangedInvariant, collect_concat, visited_proceed phase' going, List.append_assoc,
        List.singleton_append]
      intro settled
      exact (before _ phase' settled).passed now phase' going examined same (settled a (by simp))
  | @begunCall p a rest next constraintId phase' going examined =>
      cases here
      simp only [UnchangedInvariant, collect_concat, visited_proceed phase' going, List.append_assoc,
        List.singleton_append]
      -- No call is begun for a settled agreement.
      intro settled
      cases ((before _ phase' settled).examined now examined (settled a (by simp))).1
  | settled phase' done =>
      cases here
      rw [UnchangedInvariant, collect_concat_of_nil (f := visited) rfl]
      exact fun settled => absurd settled (before _ phase')
  | givenUp phase' begun' =>
      cases here
      rw [UnchangedInvariant, collect_concat_of_nil (f := visited) rfl]
      exact fun settled => absurd settled (before _ phase')

theorem Scans.changedNothing (scans : s.Scans acts agreements report) (reachable : s.Reachable)
    (notCancelled : report.cancelled = false) (keeping : KeepsClock acts)
    (settled : ∀ a ∈ agreements, s.monitor.watch.Settled s.service.clock a)
    (known : ∀ id ∈ s.monitor.watch.names, ∃ a ∈ agreements, a.agreementId = id) :
    s.collect asked (Act.wholeScan acts) = [] ∧
      (s.run (Act.wholeScan acts)).monitor.watch = s.monitor.watch ∧ report.violations = 0 ∧
      report.removed = 0 ∧ report.evaluated = agreements.countP s.monitor.watch.watches := by
  obtain ⟨p, rest, closes⟩ := scans.closes reachable
  have reachable' : (s.step .enter).Reachable := reachable.run [.enter]
  have now : (s.step .enter).service.clock = s.service.clock := step_clock (by simp)
  have entered : (s.step .enter).monitor.watch = s.monitor.watch := by rw [step_enter scans.free]
  obtain rfl := closes.rest_eq_nil notCancelled
  have listing := scans.listing closes
  rw [List.append_nil] at listing
  have changedNothing := unchangedInvariant reachable' scans.begun scans.scanning keeping _ closes.phase
  simp only [UnchangedInvariant, List.append_nil, ← listing, entered, now] at changedNothing
  obtain ⟨watch, unasked, violations, removed, evaluated⟩ := changedNothing settled
  rw [entered] at watch evaluated
  have kept : (s.run (Act.wholeScan acts)).monitor.watch = s.monitor.watch := by
    refine Catalog.ext_find? fun id => ?_
    rw [run_wholeScan, closes.find? notCancelled, watch]
    split
    · rfl
    · next unlisted =>
        refine (Option.not_isSome_iff_eq_none.mp fun present => unlisted ?_).symm
        rw [closes.contains_listedIds, ← listing]
        exact known id (Catalog.mem_names.mpr present)
  refine ⟨(collect_wholeScan rfl closes.unasked).trans unasked, kept, ?_, ?_, ?_⟩
  · exact (congrArg (·.violations) closes.counts).trans violations
  · have sizes := (((s.step .enter).run acts).closing p []).prune_close_removed
    have ended : (((s.step .enter).run acts).closing p []).prune.close.monitor.watch = s.monitor.watch := by
      rw [← kept, run_wholeScan, closes.after]
      rfl
    rw [← closes.report, ended, closing_nil] at sizes
    change report.removed + s.monitor.watch.size =
      p.report.removed + ((s.step .enter).run acts).monitor.watch.size at sizes
    rw [watch, removed] at sizes
    exact Nat.add_right_cancel sizes
  · rw [listing, ← evaluated]
    exact congrArg (·.evaluated) closes.counts

/-! ## A scan that begins no call -/

def Act.visitEach (agreements : List Agreement) : List Act :=
  .list (.listed agreements) :: List.replicate agreements.length .proceed

theorem traffic_not_mem_visitEach (agreements : List Agreement) (act : Traffic.Act) :
    .traffic act ∉ Act.visitEach agreements := by
  simp [Act.visitEach]

theorem step_proceed_of_settled {p : ScanProgress} {a : Agreement} {rest : List Agreement}
    (phase : s.scan = some (.visiting p (a :: rest))) (going : p.stopped = false)
    (settled : s.monitor.watch.Settled s.service.clock a) :
    ∃ p', s.step .proceed = { s with scan := some (.visiting p' rest) } ∧ p'.stopped = false ∧
      p'.report.cancelled = p.report.cancelled := by
  have examined := (s.resume p).examined a
  simp only [step, phase, proceed, going, Bool.false_eq_true, if_false]
  revert examined
  rcases (s.resume p).examine a with ⟨next, constraintId⟩
  intro examined
  obtain ⟨rfl, watch, -⟩ := examined.of_settled settled
  have monitor : next.monitor = s.monitor := by
    rw [examined.monitor, watch]
    rfl
  refine ⟨next.progress, ?_, examined.frame.2.1.trans going, examined.frame.2.2.2.2.2⟩
  simp only [adopt, monitor]

theorem run_proceed_of_settled {p : ScanProgress} {rest : List Agreement}
    (phase : s.scan = some (.visiting p rest)) (going : p.stopped = false)
    (settled : ∀ a ∈ rest, s.monitor.watch.Settled s.service.clock a) :
    s.scanning (List.replicate rest.length .proceed) = true ∧
      ∃ p', s.run (List.replicate rest.length .proceed) = { s with scan := some (.visiting p' []) } ∧
        p'.report.cancelled = p.report.cancelled := by
  induction rest generalizing s p with
  | nil => exact ⟨by simp [scanning, phase], p, by rw [← phase]; rfl, rfl⟩
  | cons a rest ih =>
      obtain ⟨p', step, going', cancelled⟩ :=
        step_proceed_of_settled phase going (settled a List.mem_cons_self)
      have phase' : (s.step .proceed).scan = some (.visiting p' rest) := by rw [step]
      obtain ⟨scanning, p'', run, cancelled'⟩ := ih phase' going' fun b member => by
        rw [step]
        exact settled b (List.mem_cons_of_mem a member)
      rw [List.length_cons, List.replicate_succ]
      refine ⟨by simp [System.scanning, phase, scanning], p'', ?_, cancelled'.trans cancelled⟩
      rw [run_cons, run, step]

theorem listed_proceed (s : System) (count : Nat) : s.listed (List.replicate count .proceed) = none := by
  induction count generalizing s with
  | zero => rfl
  | succ count ih =>
      rw [List.replicate_succ, listed, ih]
      rfl

theorem exists_scans_visitEach (free : s.monitor.busy = false)
    (settled : ∀ a ∈ agreements, s.monitor.watch.Settled s.service.clock a) :
    ∃ report, s.Scans (Act.visitEach agreements) agreements report ∧ report.cancelled = false := by
  have entered := step_enter free
  have handed : (s.step .enter).step (.list (.listed agreements)) =
      { s.step .enter with
        scan := some (.visiting
          ⟨{ startedAt := some s.service.clock, listed := agreements.length }, false, []⟩
          agreements) } := by
    rw [entered]
    rfl
  generalize visiting : (s.step .enter).step (.list (.listed agreements)) = t at handed
  have phase : t.scan = some (.visiting
      ⟨{ startedAt := some s.service.clock, listed := agreements.length }, false, []⟩ agreements) := by
    rw [handed]
  have settled' : ∀ a ∈ agreements, t.monitor.watch.Settled t.service.clock a := by
    rw [handed, entered]
    exact settled
  obtain ⟨scanning, p, run, notCancelled⟩ := run_proceed_of_settled phase rfl settled'
  have proceeded : (s.step .enter).run (Act.visitEach agreements) =
    { t with scan := some (.visiting p []) } := by
    rw [Act.visitEach, run_cons, visiting, run]
  refine ⟨(({ t with scan := some (.visiting p []) } : System).resume p).prune.close.report,
    ⟨free, ?_, ?_, ?_⟩, ?_⟩
  · rw [Act.visitEach, System.scanning, visiting, scanning, entered]
    rfl
  · rw [Act.visitEach, listed, visiting, listed_proceed, entered]
    rfl
  · rw [run_wholeScan, run_cons, proceeded]
    rfl
  · exact (Scan.prune_close_frame _).2.2.2.trans notCancelled

/-! ## Both scans -/

theorem countP_watches {w : WatchTable} {now : Instant}
    (distinct : (agreements.map (·.agreementId)).Nodup) (settled : ∀ a ∈ agreements, w.Settled now a)
    (known : ∀ id ∈ w.names, ∃ a ∈ agreements, a.agreementId = id) :
    agreements.countP w.watches = w.values.countP (·.state = .watching) := by
  have same : ((agreements.filter w.watches).map (·.agreementId)).Perm
      (w.names.filter fun id => (w.find? id).any (·.state = .watching)) := by
    refine (List.perm_ext_iff_of_nodup (distinct.sublist (List.filter_sublist.map _))
      (w.nodup_names.filter _)).mpr fun id => ?_
    simp only [List.mem_map, List.mem_filter, Option.any_eq_true, decide_eq_true_eq]
    constructor
    · rintro ⟨a, ⟨member, watched⟩, rfl⟩
      obtain ⟨e, entry, state⟩ := (settled a member).watches_iff.mp watched
      exact ⟨Catalog.mem_names.mpr (by rw [entry]; rfl), e, entry, state⟩
    · rintro ⟨present, watched⟩
      obtain ⟨a, member, rfl⟩ := known id present
      exact ⟨a, ⟨member, (settled a member).watches_iff.mpr watched⟩, rfl⟩
  rw [Catalog.countP_values, List.countP_eq_length_filter, List.countP_eq_length_filter, ← same.length_eq,
    List.length_map]

theorem rescan_changes_nothing (reachable : s.Reachable) {first : List Act} {report : ScanReport}
    (scans : s.Scans first agreements report) (distinct : (agreements.map (·.agreementId)).Nodup)
    (notCancelled : report.cancelled = false) (noFailures : report.failures = 0)
    (keeping : KeepsClock first) :
    let between := s.run (Act.wholeScan first)
    (∃ again, between.Scans (Act.visitEach agreements) agreements again ∧ again.cancelled = false) ∧
      ∀ second again, between.Scans second agreements again → again.cancelled = false →
        KeepsClock second →
        let after := between.run (Act.wholeScan second)
        ((∀ act, .traffic act ∉ second) → after.toTraffic = between.toTraffic) ∧
          between.collect asked (Act.wholeScan second) = [] ∧
          after.monitor.watch = between.monitor.watch ∧
          (again.violations = 0 ∧ again.retired = 0 ∧ again.alreadyRetired = 0 ∧ again.failures = 0 ∧
            again.removed = 0) ∧
          again.evaluated = between.monitor.watch.values.countP (·.state = .watching) := by
  intro between
  have reachable' : between.Reachable := reachable.run _
  obtain ⟨settled, known⟩ := scans.settled reachable distinct notCancelled noFailures keeping
  have now : between.service.clock = s.service.clock := run_clock fun clock => by
    simpa [Act.wholeScan] using keeping clock
  rw [← now] at settled
  refine ⟨exists_scans_visitEach (scans.leaves_free reachable) settled, ?_⟩
  intro second again rescans notCancelledAgain keepingAgain after
  obtain ⟨unasked, watch, violations, removed, evaluated⟩ :=
    rescans.changedNothing reachable' notCancelledAgain keepingAgain settled known
  obtain ⟨p, rest, closes⟩ := rescans.closes reachable'
  have sum := closes.balances.violations
  refine ⟨fun alone => run_toTraffic_of_unasked (fun act => ?_) unasked, unasked, watch,
    ⟨violations, by omega, by omega, by omega, removed⟩,
    evaluated.trans (countP_watches distinct settled known)⟩
  simpa [Act.wholeScan] using alone act

theorem rescan_changes_nothing_stale :
    let calm (id : String) : Agreement := ⟨id, .finalized, []⟩
    let violating (id : String) : Agreement := ⟨id, .unknown, [⟨"c-1", none, none⟩]⟩
    let advance (place : Nat) : Act := .traffic (.advance place)
    let s := (setUp (.memory .empty) .epoch).run
      [.traffic (.setFaults { crash := (· == "a-1") }), .enter,
        .list (.listed [violating "a-1", calm "a-2", calm "a-3"]), .proceed, advance 0, advance 0, .settle,
        .proceed, .proceed, .proceed, .traffic (.setFaults {})]
    let agreements := [violating "a-1", ⟨"a-2", .terminated, []⟩, calm "a-4", violating "a-5"]
    let first : List Act :=
      [.list (.listed agreements), .proceed, advance 1, advance 1, advance 1, .settle, .proceed, .proceed,
        .traffic (.ask "a-5" ReasonCode.manualReason "admin"), advance 2, advance 2, advance 2, .proceed, advance 3,
        advance 3, .settle]
    let second := Act.visitEach agreements
    let report : ScanReport :=
      { startedAt := some .epoch, finishedAt := some .epoch, listed := 4, evaluated := 3, violations := 2,
        retired := 1, alreadyRetired := 1, removed := 2 }
    let again : ScanReport :=
      { startedAt := some .epoch, finishedAt := some .epoch, listed := 4, evaluated := 1 }
    let between := s.run (Act.wholeScan first)
    s.Reachable ∧ s.Scans first agreements report ∧ between.Scans second agreements again ∧
      (between.run (Act.wholeScan second)).toTraffic = between.toTraffic ∧
      between.monitor.watch.values.countP (·.state = .watching) = 1 := by
  intro calm violating advance s agreements first second report again between
  have reachable : s.Reachable := (isInitial_setUp (.inl rfl) .epoch).reachable.run _
  have scans : s.Scans first agreements report := ⟨by decide, by decide, by decide, by decide⟩
  have rescans : between.Scans second agreements again := ⟨by decide, by decide, by decide, by decide⟩
  have keeping : KeepsClock first := by
    intro clock member
    simp [first, advance] at member
  have alone := traffic_not_mem_visitEach agreements
  obtain ⟨-, rescanned⟩ := rescan_changes_nothing reachable scans (by decide) rfl rfl keeping
  obtain ⟨unchanged, -, -, -, evaluated⟩ := rescanned second again rescans rfl fun clock => alone _
  exact ⟨reachable, scans, rescans, unchanged alone, evaluated.symm⟩

end System

end RetirementLedger

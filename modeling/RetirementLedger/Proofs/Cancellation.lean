import RetirementLedger.Proofs.Permanence
import RetirementLedger.Proofs.System.Calls

namespace RetirementLedger.System

variable {s : System} {acts : List Act}

theorem visited_of_stopRequested (reachable : s.Reachable) {startedAt : Instant}
    (begun : s.scan = some (.listing startedAt false)) (scanning : s.scanning acts = true)
    (stopRequested : .stop ∈ acts)
    (act : Act) : (s.run acts).visited act = [] := by
  have stopped := isStopped_iff reachable begun scanning
  cases act with
  | proceed =>
      simp only [visited]
      split
      · next p a rest phase => exact if_pos ((stopped _ phase).mpr stopRequested)
      · rfl
  | _ => rfl

theorem collect_visited_of_stopRequested (reachable : s.Reachable) {startedAt : Instant}
    (begun : s.scan = some (.listing startedAt false)) {earlier later : List Act}
    (scanning : s.scanning (earlier ++ .stop :: later) = true) :
    s.collect visited (earlier ++ .stop :: later) = s.collect visited earlier := by
  induction later using List.reverseRecOn with
  | nil => simp [visited]
  | append_singleton rest act ih =>
      have split : earlier ++ .stop :: (rest ++ [act]) = (earlier ++ .stop :: rest) ++ [act] := by simp
      rw [split] at scanning ⊢
      have before := scanning_of_append scanning
      rw [collect_concat, ih before, visited_of_stopRequested reachable begun before (by simp),
        List.append_nil]

theorem exists_concerned {place : Nat} (asked : place ∈ s.collect asked acts) :
    ∃ earlier later, acts = earlier ++ .proceed :: later ∧ place = (s.run earlier).calls.length ∧
      ∃ a ∈ s.collect visited acts,
        (s.run (earlier ++ [.proceed])).toTraffic.Concerned place a.agreementId := by
  obtain ⟨earlier, act, later, split, asked⟩ := mem_collect _ |>.mp asked
  cases act with
  | proceed =>
      simp only [System.asked] at asked
      split at asked
      · next more =>
          cases List.mem_singleton.mp asked
          obtain ⟨finding, p, rest, phase, going, -, -, -, calls⟩ :=
            (transition _ .proceed).exists_finding more
          have visited := visited_proceed phase going
          refine ⟨earlier, later, split, rfl, finding.agreement, ?_, finding.call, ?_, rfl⟩
          · exact (mem_collect _).mpr ⟨earlier, _, later, split, by simp [visited]⟩
          · rw [run_concat, calls, List.getElem?_concat_length]
      · cases asked
  | _ => cases asked

theorem agreementId_of_added (reachable : s.Reachable) {place : Nat} {id : String} {r : Retirement}
    (concerned : s.toTraffic.Concerned place id)
    (added : r ∈ s.store.added (s.step (.traffic (.advance place))).store) : r.agreementId = id := by
  obtain ⟨present, absent⟩ := Store.mem_added.mp added
  have sound := reachable.recorded.sound
  have soundAfter := (reachable.run [.traffic (.advance place)]).recorded.sound
  have held := (Store.mem_records soundAfter).mp present
  have free : s.store.record? r.agreementId = none := by
    refine Option.eq_none_iff_forall_not_mem.mpr fun other known => absent ?_
    have kept := reachable.keeps [.traffic (.advance place)] known
    cases held.symm.trans kept
    exact (Store.mem_records sound).mpr known
  obtain ⟨made, checked, about, -⟩ := Traffic.checked_of_added sound free held
  obtain ⟨call, here, concerns⟩ := concerned
  cases here.symm.trans checked
  exact about.trans concerns

theorem prefix_of_added {earlier before whole : List Act} {r : Retirement}
    (first : earlier ++ [.proceed] <+: whole) (here : before <+: whole)
    (added : r ∈ (s.run before).store.added
      ((s.run before).step (.traffic (.advance (s.run earlier).calls.length))).store) :
    earlier ++ [.proceed] <+: before := by
  rcases List.prefix_or_prefix_of_prefix first here with grown | shorter
  · exact grown
  · rcases List.prefix_concat_iff.mp shorter with rfl | ⟨between, rfl⟩
    · exact List.prefix_refl _
    · -- The call is not begun yet, and its step does nothing.
      have none : (s.run before).calls[(s.run (before ++ between)).calls.length]? = none := by
        rw [List.getElem?_eq_none_iff, run_append]
        exact run_calls_grow between
      rw [step_advance_of_none none, Store.added_self] at added
      cases added

/-- However late they run, the calls of a scan add only records of agreements that it has visited. -/
theorem exists_visited_of_filed (reachable : s.Reachable) {more : List Act} {r : Retirement}
    (filed : r ∈ s.collect (filed (s.collect asked acts)) (acts ++ more)) :
    ∃ a ∈ s.collect visited acts, a.agreementId = r.agreementId := by
  obtain ⟨before, act, after, split, filed⟩ := mem_collect _ |>.mp filed
  obtain ⟨place, asked, rfl, added⟩ := mem_filed.mp filed
  obtain ⟨earlier, later, begun, rfl, a, visited, concerned⟩ := exists_concerned asked
  have first : earlier ++ [.proceed] <+: acts ++ more := ⟨later ++ more, by simp [begun]⟩
  obtain ⟨between, rfl⟩ := prefix_of_added first ⟨_, split.symm⟩ added
  have sound := (reachable.run (earlier ++ [.proceed])).recorded.sound
  have concerned := concerned.moves sound (run_moves sound between)
  rw [← run_append] at concerned
  exact ⟨a, visited, (agreementId_of_added (reachable.run _) concerned added).symm⟩

theorem scan_stops_where_told (reachable : s.Reachable) {agreements : List Agreement}
    {report : ScanReport} (scans : s.Scans acts agreements report) :
    let whole := Act.wholeScan acts
    let after := s.run whole
    let seen := s.collect visited whole
    (seen <+: agreements ∧
        (∀ earlier later, acts = earlier ++ .stop :: later → seen = s.collect visited (.enter :: earlier)) ∧
        (.stop ∉ acts → seen = agreements) ∧ (report.cancelled = true ↔ seen ≠ agreements)) ∧
      (report.cancelled = false → ∀ id, id ∈ after.monitor.watch.names ↔
        ∃ a, Agreement.last? agreements id = some a ∧ a.status ≠ .terminated) ∧
      (report.cancelled = true →
        after.monitor.watch = (s.run (.enter :: acts)).monitor.watch ∧
          ∀ id, (∀ a ∈ seen, a.agreementId ≠ id) →
            after.monitor.watch.find? id = s.monitor.watch.find? id) ∧
      (∀ more, ∀ r ∈ s.collect (filed (s.collect asked whole)) (whole ++ more),
        ∃ a ∈ seen, a.agreementId = r.agreementId) ∧
      report.removed + after.monitor.watch.size =
        s.monitor.watch.size + (s.collect newEntries whole).length := by
  intro whole after seen
  obtain ⟨p, rest, closes⟩ := scans.closes reachable
  have reachable' : (s.step .enter).Reachable := reachable.run [.enter]
  have watch : (s.step .enter).monitor.watch = s.monitor.watch := by rw [step_enter scans.free]
  have visited : seen = (s.step .enter).collect visited acts := collect_wholeScan rfl closes.noVisit
  have grown : s.collect newEntries whole = (s.step .enter).collect newEntries acts :=
    collect_wholeScan (newEntries_of_watch watch) closes.newEntries
  have listing := scans.listing closes
  rw [← visited] at listing
  have unfinished : seen ≠ agreements ↔ rest ≠ [] := by
    rw [listing, Ne, List.self_eq_append_right]
  have cancelled : report.cancelled = true ↔ rest ≠ [] := by
    rw [closes.cancelled]
    cases rest <;> simp
  have ended : after = ((s.step .enter).run acts).finish (((s.step .enter).run acts).closing p rest) :=
    (run_wholeScan s acts).trans closes.after
  have hasVisited := closes.visitedUpTo.hasVisited
  rw [← visited, watch, ← grown] at hasVisited
  have table (cut : report.cancelled = true) :
      after.monitor.watch = ((s.step .enter).run acts).monitor.watch := by
    change (s.run whole).monitor.watch = _
    rw [run_wholeScan, closes.watch, if_pos cut]
  refine ⟨⟨⟨rest, listing.symm⟩, fun earlier later split => ?_, fun notStop => ?_, ?_⟩,
    fun notCancelled id => ?_,
    fun cut => ⟨table cut, fun id unmet => ?_⟩,
    fun more r filed => exists_visited_of_filed reachable filed, ?_⟩
  · have scanning := scans.scanning
    rw [split] at scanning
    rw [visited, split, collect_visited_of_stopRequested reachable' scans.begun scanning]
    rfl
  · rcases closes.cause with rfl | stopRequested
    · rw [listing, List.append_nil]
    · exact absurd (closes.stopRequested.mp stopRequested) notStop
  · rw [cancelled, unfinished]
  · have all := closes.rest_eq_nil notCancelled
    rw [ended, all, closing_nil, listing, all, List.append_nil]
    exact hasVisited.mem_names id
  · rw [table cut]
    exact hasVisited.reflectsVisits.unmet id (Agreement.last?_eq_none_iff.mpr unmet)
  · have removed := (((s.step .enter).run acts).closing p rest).prune_close_removed
    rw [← closes.report] at removed
    rw [ended]
    exact removed.trans hasVisited.removed

theorem scan_stops_where_told_repeated :
    let calm (id : String) : Agreement := ⟨id, .finalized, []⟩
    let violating : Agreement := ⟨"a-1", .unknown, [⟨"c-1", none, none⟩]⟩
    let gone (id : String) : Agreement := ⟨id, .terminated, []⟩
    let s := (setUp (.memory .empty) .epoch).run
      [.enter, .list (.listed [calm "a-2", calm "a-3"]), .proceed, .proceed, .proceed]
    let agreements := [violating, gone "a-2", gone "a-1", violating, gone "a-3"]
    let advance (place : Nat) : Act := .traffic (.advance place)
    let acts : List Act :=
      [.list (.listed agreements), .proceed, advance 0, advance 0, advance 0, .settle, .proceed, .proceed,
        .proceed, advance 1, .stop, advance 1, .settle]
    let report : ScanReport :=
      { startedAt := some .epoch, finishedAt := some .epoch, listed := 5, evaluated := 2, violations := 2,
        retired := 1, alreadyRetired := 1, removed := 2, cancelled := true }
    let after := s.run (Act.wholeScan acts)
    s.Reachable ∧ s.Scans acts agreements report ∧
      s.collect visited (Act.wholeScan acts) = agreements.take 4 ∧
      after.monitor.watch.find? "a-3" = s.monitor.watch.find? "a-3" ∧
      2 + after.monitor.watch.size = 2 + 2 := by
  intro calm violating gone s agreements advance acts report after
  have reachable : s.Reachable := (isInitial_setUp (.inl rfl) .epoch).reachable.run _
  have scans : s.Scans acts agreements report := ⟨by decide, by decide, by decide, by decide⟩
  obtain ⟨⟨-, stopRequested, -⟩, -, cut, -, removed⟩ := scan_stops_where_told reachable scans
  have seen := stopRequested (acts.take 10) [advance 1, .settle] rfl
  have visited : s.collect visited (Act.wholeScan acts) = agreements.take 4 := seen.trans (by decide)
  refine ⟨reachable, scans, visited, (cut rfl).2 "a-3" ?_, ?_⟩
  · rw [visited]
    decide
  · have sizes :
        s.monitor.watch.size = 2 ∧ (s.collect newEntries (Act.wholeScan acts)).length = 2 := by decide
    rw [sizes.1, sizes.2] at removed
    exact removed

end RetirementLedger.System

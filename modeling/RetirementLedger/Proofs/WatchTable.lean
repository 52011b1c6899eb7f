import RetirementLedger.Proofs.System.Entries
import RetirementLedger.Proofs.System.Watch

namespace RetirementLedger.System

theorem watch_table_kept {start : System} (initial : start.IsInitial) (acts : List Act) :
    let s := start.run acts
    (∀ id e, s.monitor.watch.find? id = some e →
      e.agreementId = id ∧ e.status ≠ .terminated ∧
        (e.state = .watching → e.constraintId = none ∧ e.violation = none) ∧
        (e.state = .violated ∨ e.state = .retired →
          e.constraintId.isSome = true ∧ e.violation.isSome = true) ∧
        (e.state = .retired → (s.store.record? id).isSome = true)) ∧
      ∀ act id e, s.monitor.watch.find? id = some e → e.state = .retired →
        (s.step act).monitor.watch.find? id = some e ∨
          (s.step act).monitor.watch.find? id = none ∧
            ∃ p rest agreements, act = .proceed ∧ s.scan = some (.visiting p rest) ∧
              start.listed acts = some agreements ∧
              ((∃ a ∈ agreements, rest.head? = some a ∧ a.agreementId = id ∧
                  a.status = .terminated) ∨
                rest = [] ∧ p.report.cancelled = false ∧
                  ∀ a ∈ agreements, a.agreementId ≠ id) := by
  have reachable := initial.reachable.run acts
  refine ⟨fun id e known => ?_, fun act id e known retired => ?_⟩
  · have sound := reachable.hasSoundEntries.sound id e known
    refine ⟨sound.filed, sound.active, sound.watching, fun accused => ?_, fun retired => ?_⟩
    · apply sound.violated
      intro watching
      rcases accused with state | state
      · cases watching.symm.trans state
      · cases watching.symm.trans state
    · exact reachable.watched.retired id (WatchTable.isRetired_of_find? known retired)
  · rcases (transition _ act).keeps_retired known retired with kept | ⟨gone, rfl, p, rest, phase, drops⟩
    · exact .inl kept
    · obtain ⟨visited, listed, ids⟩ := initial.traverses acts phase
      refine .inr ⟨gone, p, rest, _, rfl, phase, listed, ?_⟩
      rcases drops with ⟨a, others, rfl, same, terminated⟩ | ⟨rfl, whole, unmet⟩
      · exact .inl ⟨a, by simp, rfl, same, terminated⟩
      · refine .inr ⟨rfl, whole, fun a member same => unmet ?_⟩
        rw [List.append_nil] at member
        rw [ids, List.mem_reverse, ← same]
        exact List.mem_map_of_mem member

theorem watch_table_kept_terminated :
    let start := setUp (.memory .empty) .epoch
    let violating : Agreement := ⟨"a-1", .finalized, [⟨"c-1", none, none⟩]⟩
    let acts : List Act :=
      [.enter, .list (.listed [violating]), .proceed, .traffic (.advance 0), .traffic (.advance 0),
        .traffic (.advance 0), .settle, .proceed, .enter,
        .list (.listed [{ violating with status := .terminated }])]
    start.IsInitial ∧
      (∃ e, (start.run acts).monitor.watch.find? "a-1" = some e ∧ e.state = .retired ∧
        e.violation.isSome = true) ∧
      ((start.run acts).step .proceed).monitor.watch.find? "a-1" = none := by
  intro start violating acts
  have initial : start.IsInitial := isInitial_setUp (.inl rfl) .epoch
  obtain ⟨entries, changes⟩ := watch_table_kept initial acts
  have retired : ((start.run acts).monitor.watch.find? "a-1").map (·.state) = some .retired := by
    decide
  obtain ⟨e, known, state⟩ := Option.map_eq_some_iff.mp retired
  refine ⟨initial, ⟨e, known, state, ((entries _ e known).2.2.2.1 (.inr state)).2⟩, ?_⟩
  rcases changes .proceed "a-1" e known state with kept | ⟨gone, -⟩
  · have dropped : ((start.run acts).step .proceed).monitor.watch.find? "a-1" = none := by decide
    rw [dropped] at kept
    cases kept
  · exact gone

end RetirementLedger.System

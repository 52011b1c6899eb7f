import RetirementLedger.Proofs.System.Findings
import RetirementLedger.Proofs.System.ScanRuns
import RetirementLedger.Proofs.Traffic.Calls

namespace RetirementLedger.System

def filed (places : List Nat) (s : System) : Act → List Retirement
  | .traffic (.advance place) =>
    if place ∈ places then s.store.added (s.step (.traffic (.advance place))).store else []
  | _ => []

/-- Nothing changes the store or sends a notice but steps of the calls at these places. -/
def Undisturbed (places : List Nat) : System → List Act → Prop
  | _, [] => True
  | s, act :: acts =>
    ((∃ place ∈ places, act = .traffic (.advance place)) ∨
        (s.step act).store = s.store ∧ (s.step act).notices = s.notices) ∧
      (s.step act).Undisturbed places acts

def Act.isOwn (places : List Nat) : Act → Bool
  | .traffic (.advance place) => places.contains place
  | .traffic _ => false
  | _ => true

variable {s : System} {act : Act} {acts : List Act} {places : List Nat} {place : Nat}

theorem step_advance_of_none (absent : s.calls[place]? = none) :
    s.step (.traffic (.advance place)) = s := by
  have traffic : s.toTraffic.advance place = s.toTraffic := by simp only [Traffic.advance, absent]
  change { s with toTraffic := s.toTraffic.advance place } = s
  rw [traffic]

theorem Reachable.advances (reachable : s.Reachable) {old : RetireCall}
    (here : s.calls[place]? = some old) :
    ∃ new, Traffic.Advances s.toTraffic (s.step (.traffic (.advance place))).toTraffic place old new :=
  Traffic.advances reachable.recorded.sound reachable.accounted here

theorem keeps_done (reachable : s.Reachable) {reply : Reply Receipt}
    (done : s.calls[place]? = some (.done reply)) (act : Act) :
    (s.step act).calls[place]? = some (.done reply) := by
  have bound := (List.getElem?_eq_some_iff.mp done).1
  by_cases advance : ∃ other, act = .traffic (.advance other)
  · obtain ⟨other, rfl⟩ := advance
    cases here : s.calls[other]? with
    | none => rwa [step_advance_of_none here]
    | some old =>
        obtain ⟨new, advances⟩ := reachable.advances here
        rw [advances.calls]
        by_cases same : other = place
        · subst same
          cases done.symm.trans here
          rw [advances.done rfl, List.getElem?_set_self bound]
        · rw [List.getElem?_set_ne same, done]
  · obtain ⟨begun, calls, -⟩ := step_calls (s := s) fun other same => advance ⟨other, same⟩
    rw [calls, List.getElem?_append_left bound, done]

theorem filed_of_other (other : ∀ place ∈ places, act ≠ .traffic (.advance place)) :
    s.filed places act = [] := by
  unfold filed
  split
  · next place => exact if_neg fun member => other place member rfl
  · rfl

theorem mem_filed {r : Retirement} :
    r ∈ s.filed places act ↔
      ∃ place ∈ places, act = .traffic (.advance place) ∧ r ∈ s.store.added (s.step act).store := by
  unfold filed
  split
  · next place =>
      split
      · next member =>
          refine ⟨fun added => ⟨place, member, rfl, added⟩, ?_⟩
          rintro ⟨-, -, -, added⟩
          exact added
      · next outside =>
          refine ⟨by simp, ?_⟩
          rintro ⟨other, member, same, -⟩
          cases same
          exact absurd member outside
  · next other =>
      refine ⟨by simp, ?_⟩
      rintro ⟨place, -, same, -⟩
      exact absurd same (other place)

theorem flagged_congr {t : System} (calls : t.calls = s.calls) (flag : RetireCall → Bool) :
    t.flagged flag = s.flagged flag := by
  funext place
  rw [Traffic.flagged, calls, Traffic.flagged]

theorem flagged_of_other {p : RetireCall → Bool} (unasked : ∀ id reason actor, p (.asked id reason actor) = false)
    (reachable : s.Reachable) (distinct : places.Nodup)
    (other : ∀ place ∈ places, act ≠ .traffic (.advance place)) :
    places.countP ((s.step act).flagged p) = places.countP (s.flagged p) := by
  by_cases advance : ∃ place, act = .traffic (.advance place)
  · obtain ⟨place, rfl⟩ := advance
    have elsewhere : place ∉ places := fun member => other place member rfl
    cases here : s.calls[place]? with
    | none => rw [step_advance_of_none here]
    | some old =>
        obtain ⟨new, advances⟩ := reachable.advances here
        simpa [elsewhere] using Traffic.countP_flagged_advance advances here distinct p
  · obtain ⟨begun, calls, asked⟩ := step_calls (s := s) fun place same => advance ⟨place, same⟩
    have same : (s.step act).flagged p = s.flagged p := by
      refine Traffic.flagged_append calls fun call member => ?_
      obtain ⟨id, reason, actor, rfl⟩ := asked call member
      exact unasked id reason actor
    rw [same]

theorem length_filed_step (reachable : s.Reachable) (distinct : places.Nodup) (act : Act) :
    (s.filed places act).length + places.countP (s.flagged RetireCall.hasStored) =
      places.countP ((s.step act).flagged RetireCall.hasStored) := by
  by_cases advance : ∃ place ∈ places, act = .traffic (.advance place)
  · obtain ⟨place, member, rfl⟩ := advance
    simp only [filed, member, if_true]
    cases here : s.calls[place]? with
    | none =>
        rw [step_advance_of_none here, Store.added_self]
        exact Nat.zero_add _
    | some old =>
        obtain ⟨new, advances⟩ := reachable.advances here
        have counted := Traffic.countP_flagged_advance advances here distinct RetireCall.hasStored
        have added := advances.added
        rw [if_pos member, if_pos member] at counted
        omega
  · have other : ∀ place ∈ places, act ≠ .traffic (.advance place) :=
      fun place member same => advance ⟨place, member, same⟩
    rw [filed_of_other other, flagged_of_other (fun _ _ _ => rfl) reachable distinct other]
    exact Nat.zero_add _

theorem length_collect_filed (reachable : s.Reachable) (distinct : places.Nodup) (acts : List Act) :
    (s.collect (filed places) acts).length + places.countP (s.flagged RetireCall.hasStored) =
      places.countP ((s.run acts).flagged RetireCall.hasStored) := by
  induction acts generalizing s with
  | nil => exact Nat.zero_add _
  | cons act rest ih =>
      have reachable' : (s.step act).Reachable := reachable.run [act]
      have here := length_filed_step reachable distinct act
      have later := ih reachable'
      rw [run_cons, collect, List.length_append]
      omega

theorem Undisturbed.grows (reachable : s.Reachable) (distinct : places.Nodup)
    (undisturbed : s.Undisturbed places acts) :
    (s.run acts).store.records.length =
        s.store.records.length + (s.collect (filed places) acts).length ∧
      (s.run acts).notices + places.countP (s.flagged RetireCall.hasAnnounced) =
        s.notices + places.countP ((s.run acts).flagged RetireCall.hasAnnounced) := by
  induction acts generalizing s with
  | nil => exact ⟨rfl, rfl⟩
  | cons act rest ih =>
      obtain ⟨here, later⟩ := undisturbed
      have reachable' : (s.step act).Reachable := reachable.run [act]
      obtain ⟨records, notices⟩ := ih reachable' later
      suffices step : (s.step act).store.records.length = s.store.records.length + (s.filed places act).length ∧
          (s.step act).notices + places.countP (s.flagged RetireCall.hasAnnounced) =
            s.notices + places.countP ((s.step act).flagged RetireCall.hasAnnounced) by
        rw [run_cons, collect, List.length_append]
        omega
      by_cases advance : ∃ place ∈ places, act = .traffic (.advance place)
      · obtain ⟨place, member, rfl⟩ := advance
        simp only [filed, member, if_true]
        cases call : s.calls[place]? with
        | none =>
            rw [step_advance_of_none call, Store.added_self]
            exact ⟨rfl, rfl⟩
        | some old =>
            obtain ⟨new, advances⟩ := reachable.advances call
            have counted := Traffic.countP_flagged_advance advances call distinct RetireCall.hasAnnounced
            have sent := advances.notices
            rw [if_pos member, if_pos member] at counted
            exact ⟨advances.records, by omega⟩
      · obtain ⟨store, notices⟩ := here.resolve_left advance
        have other : ∀ place ∈ places, act ≠ .traffic (.advance place) :=
          fun place member same => advance ⟨place, member, same⟩
        rw [filed_of_other other, flagged_of_other (fun _ _ _ => rfl) reachable distinct other, store, notices]
        exact ⟨rfl, rfl⟩

theorem undisturbed_of_isOwn (own : acts.all (Act.isOwn places) = true) : s.Undisturbed places acts := by
  induction acts generalizing s with
  | nil => trivial
  | cons act rest ih =>
      rw [List.all_cons, Bool.and_eq_true] at own
      refine ⟨?_, ih own.2⟩
      by_cases traffic : ∃ other, act = .traffic other
      · obtain ⟨other, rfl⟩ := traffic
        cases other with
        | advance place => exact .inl ⟨place, by simpa [Act.isOwn] using own.1, rfl⟩
        | _ => cases own.1
      · have service := (transition s act).service fun other same => traffic ⟨other, same⟩
        exact .inr ⟨congrArg Service.holdings service, by rw [Traffic.notices, service]; rfl⟩

theorem ascending_asked (s : System) (acts : List Act) :
    (s.collect asked acts).Pairwise (· < ·) ∧
      ∀ place ∈ s.collect asked acts, s.calls.length ≤ place ∧ place < (s.run acts).calls.length := by
  induction acts using List.reverseRecOn with
  | nil => exact ⟨.nil, by simp [collect]⟩
  | append_singleton earlier act ih =>
      obtain ⟨ascending, bounds⟩ := ih
      -- A call that is begun gets the place behind all calls so far.
      have grown := calls_grow (s := s.run earlier) act
      have first := run_calls_grow (s := s) earlier
      have here : ∀ place ∈ (s.run earlier).asked act, place = (s.run earlier).calls.length ∧
          place < ((s.run earlier).step act).calls.length := by
        intro place member
        unfold asked at member
        split at member
        · split at member
          · next more =>
              cases List.mem_singleton.mp member
              exact ⟨rfl, more⟩
          · cases member
        · cases member
      have one : ((s.run earlier).asked act).Pairwise (· < ·) := by
        unfold asked
        split
        · split <;> simp
        · exact .nil
      rw [collect_concat, run_concat]
      refine ⟨List.pairwise_append.mpr ⟨ascending, one, fun a before b now => ?_⟩, fun place member => ?_⟩
      · rw [(here b now).1]
        exact (bounds a before).2
      · rcases List.mem_append.mp member with before | now
        · have bounds := bounds place before
          omega
        · have bounds := here place now
          omega

theorem nodup_asked (s : System) (acts : List Act) : (s.collect asked acts).Nodup :=
  (ascending_asked s acts).1.imp Nat.ne_of_lt

/-- The scan has taken the answers of these calls and knows how many of them have stored a record. -/
structure Answers (s : System) (acts : List Act) (retired : Nat) : Prop where
  done : ∀ place ∈ s.collect answered acts, ∃ reply, (s.run acts).calls[place]? = some (.done reply)
  retired : retired = (s.collect answered acts).countP ((s.run acts).flagged RetireCall.hasStored)

/-- What the acts since the scan began have to do with the calls, in each phase. -/
def CallInvariant (s : System) (acts : List Act) : ScanPhase → Prop
  | .listing _ _ => s.collect answered acts = []
  | .visiting p _ =>
    s.Answers acts p.report.retired ∧ (s.collect answered acts).Sublist (s.collect asked acts)
  | .waiting p _ place _ =>
    s.Answers acts p.report.retired ∧ (s.collect answered acts ++ [place]).Sublist (s.collect asked acts)

theorem Answers.unanswered {retired : Nat} (answers : s.Answers acts retired) (reachable : s.Reachable)
    (none : (s.run acts).answered act = []) : s.Answers (acts ++ [act]) retired := by
  have run : s.run (acts ++ [act]) = (s.run acts).step act := run_concat acts act
  have answered := collect_concat_of_nil none
  have kept (place : Nat) (member : place ∈ s.collect System.answered acts) :
      ∃ reply, (s.run acts).calls[place]? = some (.done reply) ∧
        ((s.run acts).step act).calls[place]? = some (.done reply) := by
    obtain ⟨reply, done⟩ := answers.done place member
    exact ⟨reply, done, keeps_done (reachable.run acts) done act⟩
  refine ⟨fun place member => ?_, ?_⟩
  · rw [answered] at member
    obtain ⟨reply, -, done⟩ := kept place member
    exact ⟨reply, run ▸ done⟩
  · rw [answered, run, answers.retired]
    -- A call that is done stays as it is, so it counts as before.
    refine List.countP_congr fun place member => ?_
    obtain ⟨reply, before, done⟩ := kept place member
    rw [Traffic.flagged, before, Traffic.flagged, done]

theorem Answers.settled {retired : Nat} {reply : Reply Receipt} (answers : s.Answers acts retired)
    (done : (s.run acts).calls[place]? = some (.done reply))
    (here : (s.run acts).answered act = [place])
    (calls : ((s.run acts).step act).calls = (s.run acts).calls) :
    s.Answers (acts ++ [act]) (retired + (RetireCall.done reply).hasStored.toNat) := by
  have run : (s.run (acts ++ [act])).calls = (s.run acts).calls := by rw [run_concat, calls]
  have answered : s.collect answered (acts ++ [act]) = s.collect answered acts ++ [place] := by simp [here]
  have flagged := flagged_congr run RetireCall.hasStored
  refine ⟨fun other member => ?_, ?_⟩
  · rw [answered, List.mem_append, List.mem_singleton] at member
    rw [run]
    rcases member with before | rfl
    · exact answers.done other before
    · exact ⟨reply, done⟩
  · have this : (s.run acts).flagged RetireCall.hasStored place = (RetireCall.done reply).hasStored := by
      rw [Traffic.flagged, done, Option.any_some]
    rw [answered, flagged, List.countP_append, ← answers.retired, List.countP_singleton, this]
    cases (RetireCall.done reply).hasStored <;> rfl

theorem CallInvariant.unrelated {phase : ScanPhase} (callInvariant : s.CallInvariant acts phase)
    (reachable : s.Reachable) (unasked : (s.run acts).asked act = []) (unanswered : (s.run acts).answered act = []) :
    s.CallInvariant (acts ++ [act]) phase := by
  have taken := collect_concat_of_nil unanswered
  cases phase with
  | listing startedAt stopped => exact taken.trans callInvariant
  | visiting p rest =>
      refine ⟨callInvariant.1.unanswered reachable unanswered, ?_⟩
      rw [collect_concat_of_nil unasked, taken]
      exact callInvariant.2
  | waiting p id place rest =>
      refine ⟨callInvariant.1.unanswered reachable unanswered, ?_⟩
      rw [collect_concat_of_nil unasked, taken]
      exact callInvariant.2

theorem conclude_retired_of_answered (sc : Scan) (agreementId : String) (config : MonitorConfig)
    (reply : Reply Receipt) :
    (sc.conclude agreementId ((Attempt.answered reply).result config)).report.retired =
      sc.report.retired + (RetireCall.done reply).hasStored.toNat := by
  cases reply with
  | ok receipt =>
      cases new : receipt.wasNew <;>
        simp [Attempt.result, Scan.conclude, Scan.mapReport, Scan.mapWatch, RetireCall.hasStored,
          RetireCall.receipt?, new]
  | _ => rfl

theorem callInvariant (reachable : s.Reachable) {startedAt : Instant}
    (begun : s.scan = some (.listing startedAt false)) (scanning : s.scanning acts = true) :
    ∀ phase, (s.run acts).scan = some phase → s.CallInvariant acts phase := by
  refine scan_induction (Q := s.CallInvariant) reachable begun rfl ?_ scanning
  intro earlier act after scanTransition same before phase here
  cases scanTransition with
  | unrelated scan watch notHanded noVisit unasked unanswered notStop =>
      rw [scan] at here
      exact (before phase here).unrelated reachable unasked unanswered
  | stopRequested =>
      obtain ⟨p, scan, rfl⟩ := Option.map_eq_some_iff.mp here
      have callInvariant : s.CallInvariant (earlier ++ [.stop]) p :=
        (before p scan).unrelated reachable rfl rfl
      cases p <;> exact callInvariant
  | @listed startedAt stopped listing agreements phase' answer =>
      cases here
      have none_answered : s.collect answered (earlier ++ [.list listing]) = [] :=
        (collect_concat_of_nil rfl).trans (before _ phase')
      refine ⟨⟨?_, ?_⟩, ?_⟩
      · rw [none_answered]
        simp
      · rw [none_answered]
        rfl
      · rw [none_answered]
        exact List.nil_sublist _
  | @passed p a rest next phase' going examined =>
      cases here
      have unasked : (s.run earlier).asked .proceed = [] := by
        rw [asked, same]
        exact if_neg (Nat.lt_irrefl _)
      have callInvariant := (before _ phase').unrelated reachable unasked rfl
      have retired : next.report.retired = p.report.retired := examined.retired_eq
      exact ⟨retired.symm ▸ callInvariant.1, callInvariant.2⟩
  | @begunCall p a rest next constraintId phase' going examined =>
      cases here
      obtain ⟨answers, taken⟩ := before _ phase'
      have asks : (s.run earlier).asked .proceed = [(s.run earlier).calls.length] := by
        rw [asked, same]
        refine if_pos ?_
        change _ < ((s.run earlier).calls ++ [_]).length
        rw [List.length_append]
        exact Nat.lt_succ_self _
      have retired : next.report.retired = p.report.retired := examined.retired_eq
      refine ⟨retired.symm ▸ answers.unanswered reachable rfl, ?_⟩
      rw [collect_concat_of_nil (f := answered) rfl, collect_concat, asks]
      exact taken.append (.refl _)
  | @settled p id place rest reply phase' done =>
      cases here
      obtain ⟨answers, waiting⟩ := before _ phase'
      have takes : (s.run earlier).answered .settle = [place] := by
        simp [answered, phase', done, RetireCall.isDone]
      refine ⟨?_, ?_⟩
      · have retired := conclude_retired_of_answered ((s.run earlier).resume p) id
          (s.run earlier).monitor.config reply
        exact retired.symm ▸ answers.settled done takes (congrArg (·.calls) same)
      · rw [collect_concat, takes, collect_concat_of_nil (f := asked) rfl]
        exact waiting
  | givenUp phase' begun' =>
      cases here
      obtain ⟨answers, waiting⟩ := before _ phase'
      refine ⟨answers.unanswered reachable rfl, ?_⟩
      rw [collect_concat_of_nil (f := answered) rfl, collect_concat_of_nil (f := asked) rfl]
      exact (List.sublist_append_left _ _).trans waiting

end RetirementLedger.System

import RetirementLedger.Proofs.Monitor.Watch
import RetirementLedger.Proofs.System.Basic

namespace RetirementLedger

namespace RetireCall

/-- The call is about the agreement, as far as anyone can still tell. -/
def Concerns (id : String) : RetireCall → Prop
  | .asked agreementId _ _ => agreementId = id
  | .checked r => r.agreementId = id
  | .stored receipt | .done (.ok receipt) => receipt.record.agreementId = id
  | .done _ => True

theorem concerns_done_of_failure (id : String) {reply : Reply Receipt}
    (failure : reply.receipt? = none) : (RetireCall.done reply).Concerns id := by
  cases reply with
  | ok receipt => cases failure
  | failed f => trivial
  | crashed => trivial

end RetireCall

namespace Traffic
open Relation

variable {t u : Traffic} {id : String} {place : Nat}

def Concerned (t : Traffic) (place : Nat) (id : String) : Prop :=
  ∃ call, t.calls[place]? = some call ∧ call.Concerns id

theorem Concerned.move (concerned : t.Concerned place id) (sound : t.store.Sound)
    (move : Move t u) : u.Concerned place id := by
  cases move with
  | adjust service holdings delivered failures => exact concerned
  | begin =>
      obtain ⟨call, here, about⟩ := concerned
      exact ⟨call, List.getElem?_append_left (List.getElem?_eq_some_iff.mp here).1 ▸ here, about⟩
  | insert insertion after => exact concerned
  | check call => exact exists_getElem?_set concerned call fun about => about
  | fail call unstored failure =>
      exact exists_getElem?_set concerned call fun _ => RetireCall.concerns_done_of_failure id failure
  | @answer other r receipt after call insertion sound' =>
      refine exists_getElem?_set concerned call fun about => ?_
      have kept : receipt.record.agreementId = id := (insertion.agreementId sound).trans about
      split
      · exact kept
      · exact kept
  | announce call => exact exists_getElem?_set concerned call fun about => about

theorem Concerned.moves (concerned : t.Concerned place id) (sound : t.store.Sound)
    (moves : ReflTransGen Move t u) : u.Concerned place id := by
  have both : u.store.Sound ∧ u.Concerned place id :=
    moves_preserve (P := fun t => t.store.Sound ∧ t.Concerned place id) moves ⟨sound, concerned⟩
      fun both move => ⟨move.sound both.1, both.2.move both.1 move⟩
  exact both.2

end Traffic

namespace System

variable {s : System}

structure Watched (s : System) : Prop where
  retired : ∀ id, s.monitor.watch.isRetired id = true → (s.store.record? id).isSome = true
  waiting : ∀ p id place rest, s.scan = some (.waiting p id place rest) →
    s.toTraffic.Concerned place id

theorem IsInitial.watched (initial : s.IsInitial) : s.Watched where
  retired id retired := by
    rw [initial.monitor] at retired
    cases retired
  waiting p id place rest phase := by
    rw [initial.noScan] at phase
    cases phase

theorem isSome_of_holds {id : String} {r : Retirement} (held : s.store.Holds r)
    (about : r.agreementId = id) : (s.store.record? id).isSome = true := by
  unfold Store.Holds at held
  rw [← about, held]
  rfl

theorem watched_conclude {p : ScanProgress} {id : String} {rest : List Agreement}
    {attempt : Attempt} (watched : s.Watched)
    (answered : ∀ receipt, attempt.result s.monitor.config = .ok receipt →
      (s.store.record? id).isSome = true) :
    (s.conclude p id rest attempt).Watched := by
  refine ⟨fun other retired => ?_, fun _ _ _ _ phase => by cases phase⟩
  rcases Scan.conclude_isRetired retired with before | ⟨rfl, receipt, result⟩
  · exact watched.retired other before
  · exact answered receipt result

theorem watched_finish {sc : Scan} (watched : s.Watched) (monitor : sc.monitor = s.monitor) :
    (s.finish sc).Watched := by
  refine ⟨fun id retired => ?_, fun _ _ _ _ phase => by cases phase⟩
  have before := Scan.prune_close_isRetired retired
  rw [monitor] at before
  exact watched.retired id before

theorem watched_proceed {p : ScanProgress} {rest : List Agreement} (watched : s.Watched) :
    (s.proceed p rest).Watched := by
  cases rest with
  | nil => exact watched_finish watched rfl
  | cons a rest =>
      cases stopRequested : p.stopped with
      | true =>
          simp only [proceed, stopRequested, if_true]
          exact watched_finish watched rfl
      | false =>
          have unretired (id : String)
              (retired : ((s.resume p).examine a).1.monitor.watch.isRetired id = true) :
              (s.store.record? id).isSome = true :=
            watched.retired id (((s.resume p).examined a).isRetired retired)
          simp only [proceed, stopRequested, Bool.false_eq_true, if_false]
          revert unretired
          rcases (s.resume p).examine a with ⟨next, _ | constraintId⟩ <;> intro unretired
          · exact ⟨unretired, fun _ _ _ _ phase => by cases phase⟩
          · refine ⟨unretired, fun p id place rest phase => ?_⟩
            cases phase
            exact ⟨_, List.getElem?_concat_length, rfl⟩

theorem Watched.step (watched : s.Watched) (recorded : s.toTraffic.Recorded) (act : Act) :
    (s.step act).Watched := by
  cases act with
  | traffic act =>
      have moves := Traffic.step_moves recorded.sound act
      refine ⟨fun id retired => ?_, fun p id place rest phase => ?_⟩
      · obtain ⟨r, held⟩ := Option.isSome_iff_exists.mp (watched.retired id retired)
        exact Option.isSome_iff_exists.mpr ⟨r, Traffic.moves_keep moves held⟩
      · exact (watched.waiting p id place rest phase).moves recorded.sound moves
  | enter =>
      simp only [System.step, enter, Monitor.enter]
      split
      · exact ⟨watched.retired, watched.waiting⟩
      · next m entered =>
          split at entered
          · cases entered
          · cases entered
            exact ⟨watched.retired, fun _ _ _ _ phase => by cases phase⟩
  | list listing =>
      simp only [System.step]
      split
      · unfold list
        split
        · exact ⟨watched.retired, fun _ _ _ _ phase => by cases phase⟩
        · exact ⟨watched.retired, fun _ _ _ _ phase => by cases phase⟩
      · exact watched
  | proceed =>
      simp only [System.step]
      split
      · exact watched_proceed watched
      · exact watched
  | settle =>
      simp only [System.step]
      split
      · next p id place rest phase =>
          split
          · next reply done =>
              refine watched_conclude watched fun receipt result => ?_
              obtain ⟨call, here, about⟩ := watched.waiting p id place rest phase
              -- The call still concerns the agreement that the scan waits for, so a receipt of it
              -- is a receipt for this agreement.
              cases done.symm.trans here
              cases reply with
              | ok receipt =>
                  exact isSome_of_holds
                    (recorded.calls _ (List.mem_of_getElem? done) receipt rfl) about
              | failed f => cases result
              | crashed => cases result
          · exact watched
      · exact watched
  | giveUp =>
      simp only [System.step]
      split
      · split
        · exact watched_conclude watched fun receipt result => by cases result
        · exact watched
      · exact watched
  | stop =>
      refine ⟨watched.retired, fun p id place rest phase => ?_⟩
      obtain ⟨before, scan, stopped⟩ := Option.map_eq_some_iff.mp phase
      cases before with
      | listing startedAt stopRequested => cases stopped
      | visiting p rest => cases stopped
      | waiting p id place rest =>
          cases stopped
          exact watched.waiting _ _ _ _ scan

theorem Reachable.watched (reachable : s.Reachable) : s.Watched :=
  reachable.invariant IsInitial.watched fun act before watched =>
    watched.step before.recorded act

end System

end RetirementLedger

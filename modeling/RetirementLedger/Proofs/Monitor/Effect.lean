import Mathlib.Data.List.Basic
import RetirementLedger.Proofs.Filing
import RetirementLedger.Proofs.Monitor.Visits

namespace RetirementLedger

structure FaultPlan.IsCalm (p : FaultPlan) : Prop where
  insert : ∀ id, p.insert id = Option.none
  get : ∀ id, p.get id = Option.none
  crash : ∀ id, p.crash id = false
  stall : ∀ id, p.stall id = false

theorem FaultPlan.isCalm_none : FaultPlan.none.IsCalm :=
  ⟨fun _ => rfl, fun _ => rfl, fun _ => rfl, fun _ => rfl⟩

theorem Attempt.takes_record (s : Service) (agreementId constraintId : String) :
    s.holdings.Takes (record s agreementId constraintId) ↔
      s.holdings.CanFile agreementId s.clock := by
  have chars : (ReasonCode.violationReason constraintId).toList =
      "POLICY_VIOLATION:".toList ++ constraintId.toList := by
    simp [ReasonCode.violationReason, ReasonCode.violationMark]
  refine s.holdings.takes_create_iff ?_ ?_ (by decide) agreementId s.clock
  · simp [Text.isBlankText, chars, Text.isBlank]
  · simp [chars]

namespace Service

variable {s : Service}

theorem insert_calm (calm : s.store.faults.IsCalm) (r : Retirement) :
    s.insert r = (.ofExcept (s.holdings.insert r).1, s.withHoldings (s.holdings.insert r).2) := by
  unfold insert FaultyStore.insert FaultyStore.insertFault
  rw [calm.crash, calm.insert]
  rfl

theorem get_calm (sound : s.holdings.Sound) (calm : s.store.faults.IsCalm) (id : String) :
    s.get id = .ok (s.holdings.record? id) := by
  rw [get_eq sound, calm.get]

theorem retire_isSome_iff (sound : s.holdings.Sound) (calm : s.store.faults.IsCalm)
    (agreementId reason actor id : String) :
    ((s.retire agreementId reason actor).2.holdings.record? id).isSome = true ↔
      (s.holdings.record? id).isSome = true ∨
        id = agreementId ∧ s.holdings.Takes (.create agreementId reason actor s.clock) := by
  rw [retire_eq]
  cases valid : (Retirement.create agreementId reason actor s.clock).validate with
  | error f =>
      refine ⟨.inl, ?_⟩
      rintro (held | ⟨-, accepted, -⟩)
      · exact held
      · rw [Store.validate_of_accept accepted] at valid
        cases valid
  | ok u =>
      dsimp only
      rw [holdings_settled, insert_calm calm]
      exact (Store.insert_spec sound _).1.isSome_iff id

end Service

namespace Scan

variable {sc next : Scan} {a : Agreement} {attempt : Option (Except Failure Receipt)}

theorem Visited.isSome_iff (visited : sc.Visited a next attempt) (faithful : sc.Faithful)
    (calm : sc.service.store.faults.IsCalm) (id : String) :
    (next.service.holdings.record? id).isSome = true ↔
      (sc.service.holdings.record? id).isSome = true ∨
        sc.service.holdings.CanFile id sc.service.clock ∧ a.agreementId = id ∧
          a.status.isMonitored = true ∧ a.IsViolated sc.service.clock := by
  cases visited with
  | passed examined =>
      rw [examined.frame.1]
      refine ⟨.inl, ?_⟩
      rintro (held | ⟨-, rfl, listed, violated⟩)
      · exact held
      · cases examined with
        | terminated unmonitored => simp [listed] at unmonitored
        -- The store is not asked here: the record follows from the entry of the watch table.
        | retired monitored known => exact faithful.retired _ known
        | satisfied monitored active found =>
            rw [← Agreement.firstViolation?_isSome, found] at violated
            cases violated
  | @begunCall next constraintId attempt stops after examined made =>
      have condemned : a.status.isMonitored = true ∧ a.IsViolated sc.service.clock := by
        cases examined with
        | violated monitored active found =>
            exact ⟨monitored, Agreement.firstViolation?_isSome.mp (by rw [found]; rfl)⟩
      have retired : after = (sc.service.retire a.agreementId
          (ReasonCode.violationReason constraintId) monitorActor).2 := by
        rcases Attempt.make_cases sc.service a.agreementId constraintId with
          ⟨_, answered⟩ | ⟨_, -, stalls, -⟩
        · rw [made] at answered
          cases answered
          rfl
        · rw [calm.stall] at stalls
          cases stalls
      change ((conclude _ _ _).service.holdings.record? id).isSome = true ↔ _
      rw [(conclude_frame _ _ _).1]
      change (after.holdings.record? id).isSome = true ↔ _
      rw [retired, Service.retire_isSome_iff faithful.sound calm]
      have filing := Attempt.takes_record sc.service a.agreementId constraintId
      refine or_congr_right ⟨?_, ?_⟩
      · rintro ⟨rfl, taken⟩
        exact ⟨filing.mp taken, rfl, condemned⟩
      · rintro ⟨filed, rfl, -⟩
        exact ⟨rfl, filing.mpr filed⟩

theorem visitAll_isSome_iff (faithful : sc.Faithful) (calm : sc.service.store.faults.IsCalm)
    (signal : Nat → Bool) (place : Nat) (agreements : List Agreement)
    (whole : (sc.visitAll signal place agreements).report.cancelled = false) (id : String) :
    ((sc.visitAll signal place agreements).service.holdings.record? id).isSome = true ↔
      (sc.service.holdings.record? id).isSome = true ∨
        sc.service.holdings.CanFile id sc.service.clock ∧ ∃ a ∈ agreements,
          a.agreementId = id ∧ a.status.isMonitored = true ∧ a.IsViolated sc.service.clock := by
  induction agreements generalizing sc place with
  | nil => simp [visitAll]
  | cons a rest ih =>
      cases stopRequested : sc.stopped with
      | true =>
          rw [visitAll_stopRequested signal stopRequested] at whole
          cases whole
      | false =>
          rw [visitAll_going signal stopRequested] at whole ⊢
          have kept : Service.Kept sc.service (sc.after a (signal place)).service :=
            (sc.visited a).kept faithful.sound
          have here : ((sc.after a (signal place)).service.holdings.record? id).isSome = true ↔ _ :=
            (sc.visited a).isSome_iff faithful calm id
          have others := ih (faithful.after a _) (kept.faults ▸ calm) (place + 1) whole
          rw [others, here, kept.clock, Store.CanFile.congr kept.kind, or_assoc, ← and_or_left,
            List.exists_mem_cons_iff]

end Scan

end RetirementLedger

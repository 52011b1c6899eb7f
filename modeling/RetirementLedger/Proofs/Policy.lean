import RetirementLedger.Policy

namespace RetirementLedger

def Violation.rank : Violation → Nat
  | .missingBounds => 0
  | .malformedBound .validFrom _ => 1
  | .malformedBound .validUntil _ => 2
  | .invertedInterval => 3
  | .notYetValid => 4
  | .expired => 5

namespace Policy
open Instant (ofText?)

/-- What is wrong with an interval at an instant, whatever else is. -/
inductive Fault (now : Instant) : Option String → Option String → Violation → Prop
  | missing : Fault now none none .missingBounds
  | malformedFrom {raw : String} {validUntil : Option String} (unread : ofText? raw = none) :
      Fault now (some raw) validUntil (.malformedBound .validFrom raw)
  | malformedUntil {validFrom : Option String} {raw : String} (unread : ofText? raw = none) :
      Fault now validFrom (some raw) (.malformedBound .validUntil raw)
  | inverted {raw raw' : String} {first last : Instant} (read : ofText? raw = some first)
      (read' : ofText? raw' = some last) (turned : last.nanos ≤ first.nanos) :
      Fault now (some raw) (some raw') .invertedInterval
  | early {raw : String} {first : Instant} {validUntil : Option String}
      (read : ofText? raw = some first) (before : now.nanos < first.nanos) :
      Fault now (some raw) validUntil .notYetValid
  | late {validFrom : Option String} {raw : String} {last : Instant}
      (read : ofText? raw = some last) (after : last.nanos ≤ now.nanos) :
      Fault now validFrom (some raw) .expired

structure Holds (now : Instant) (validFrom validUntil : Option String) : Prop where
  given : validFrom.isSome ∨ validUntil.isSome
  begun : ∀ raw ∈ validFrom, ∃ first, ofText? raw = some first ∧ first.nanos ≤ now.nanos
  unended : ∀ raw ∈ validUntil, ∃ last, ofText? raw = some last ∧ now.nanos < last.nanos
  ordered : ∀ raw ∈ validFrom, ∀ raw' ∈ validUntil, ∀ first last,
    ofText? raw = some first → ofText? raw' = some last → first.nanos < last.nanos

inductive SameBound : Option String → Option String → Prop
  | refl (bound : Option String) : SameBound bound bound
  | reread {raw raw' : String} {t t' : Instant} (read : ofText? raw = some t)
      (read' : ofText? raw' = some t') (nanos : t.nanos = t'.nanos) :
      SameBound (some raw) (some raw')

variable {now later : Instant} {validFrom validUntil : Option String} {v w : Violation}

theorem Fault.unique (fault : Fault now validFrom validUntil v) (other : Fault now validFrom validUntil w)
    (rank : v.rank = w.rank) : v = w := by
  cases fault <;> cases other <;> first | rfl | cases rank

theorem Holds.no_fault (holds : Holds now validFrom validUntil) : ¬ Fault now validFrom validUntil v := by
  intro fault
  cases fault with
  | missing => simpa using holds.given
  | malformedFrom unread =>
      obtain ⟨first, read, -⟩ := holds.begun _ rfl
      cases unread.symm.trans read
  | malformedUntil unread =>
      obtain ⟨last, read, -⟩ := holds.unended _ rfl
      cases unread.symm.trans read
  | inverted read read' turned =>
      have ordered := holds.ordered _ rfl _ rfl _ _ read read'
      omega
  | early read before =>
      obtain ⟨first, read', begun⟩ := holds.begun _ rfl
      cases read.symm.trans read'
      omega
  | late read after =>
      obtain ⟨last, read', unended⟩ := holds.unended _ rfl
      cases read.symm.trans read'
      omega

/-- A verdict together with what makes it the right one. -/
inductive Judged (now : Instant) (validFrom validUntil : Option String) : Verdict → Prop
  | satisfied (holds : Holds now validFrom validUntil) : Judged now validFrom validUntil .satisfied
  | violated {v : Violation} (fault : Fault now validFrom validUntil v)
      (first : ∀ w, Fault now validFrom validUntil w → v.rank ≤ w.rank) :
      Judged now validFrom validUntil (.violated v)

theorem readBound_read {bound : Bound} {raw : String} {t : Instant} (read : ofText? raw = some t) :
    readBound bound (some raw) = .ok (some t) := by
  simp [readBound, read]

theorem readBound_unread {bound : Bound} {raw : String} (unread : ofText? raw = none) :
    readBound bound (some raw) = .error (.malformedBound bound raw) := by
  simp [readBound, unread]

theorem judged_from {raw : String} {first : Instant} (read : ofText? raw = some first) :
    Judged now (some raw) none (judgeInterval now (some first) none) := by
  unfold judgeInterval
  dsimp only
  split
  · next before =>
      refine .violated (.early read before) fun w fault => ?_
      cases fault with
      | malformedFrom unread => cases unread.symm.trans read
      | early => exact Nat.le_refl _
  · next begun =>
      refine .satisfied ⟨.inl rfl, ?_, by simp, by simp⟩
      rintro _ ⟨⟩
      exact ⟨first, read, Int.not_lt.mp begun⟩

theorem judged_until {raw : String} {last : Instant} (read : ofText? raw = some last) :
    Judged now none (some raw) (judgeInterval now none (some last)) := by
  unfold judgeInterval
  dsimp only
  split
  · next after =>
      refine .violated (.late read after) fun w fault => ?_
      cases fault with
      | malformedUntil unread => cases unread.symm.trans read
      | late => exact Nat.le_refl _
  · next unended =>
      refine .satisfied ⟨.inr rfl, by simp, ?_, by simp⟩
      rintro _ ⟨⟩
      exact ⟨last, read, Int.not_le.mp unended⟩

theorem judged_both {raw raw' : String} {first last : Instant} (read : ofText? raw = some first)
    (read' : ofText? raw' = some last) :
    Judged now (some raw) (some raw') (judgeInterval now (some first) (some last)) := by
  -- Both bounds are read, which leaves three faults, each of which is now a matter of numbers.
  have numbers {w : Violation} (fault : Fault now (some raw) (some raw') w) :
      (w = .invertedInterval ∧ last.nanos ≤ first.nanos) ∨ (w = .notYetValid ∧ now.nanos < first.nanos) ∨
        w = .expired := by
    cases fault with
    | malformedFrom unread => cases unread.symm.trans read
    | malformedUntil unread => cases unread.symm.trans read'
    | inverted read₁ read₂ turned =>
        cases read.symm.trans read₁
        cases read'.symm.trans read₂
        exact .inl ⟨rfl, turned⟩
    | early read₁ before =>
        cases read.symm.trans read₁
        exact .inr (.inl ⟨rfl, before⟩)
    | late => exact .inr (.inr rfl)
  unfold judgeInterval
  dsimp only
  split
  · next turned =>
      refine .violated (.inverted read read' turned) fun w fault => ?_
      obtain ⟨rfl, -⟩ | ⟨rfl, -⟩ | rfl := numbers fault <;> decide
  · next ordered =>
      split
      · next before =>
          refine .violated (.early read before) fun w fault => ?_
          obtain ⟨rfl, turned⟩ | ⟨rfl, -⟩ | rfl := numbers fault
          · exact absurd turned ordered
          · decide
          · decide
      · next begun =>
          split
          · next after =>
              refine .violated (.late read' after) fun w fault => ?_
              obtain ⟨rfl, turned⟩ | ⟨rfl, before⟩ | rfl := numbers fault
              · exact absurd turned ordered
              · exact absurd before begun
              · decide
          · next unended =>
              refine .satisfied ⟨.inl rfl, ?_, ?_, ?_⟩
              · rintro _ ⟨⟩
                exact ⟨first, read, Int.not_lt.mp begun⟩
              · rintro _ ⟨⟩
                exact ⟨last, read', Int.not_le.mp unended⟩
              · rintro _ ⟨⟩ _ ⟨⟩ first₁ last₁ read₁ read₂
                cases read.symm.trans read₁
                cases read'.symm.trans read₂
                exact Int.not_le.mp ordered

theorem judged (now : Instant) (validFrom validUntil : Option String) :
    Judged now validFrom validUntil (judge now validFrom validUntil) := by
  cases validFrom with
  | none =>
      cases validUntil with
      | none => exact .violated .missing fun w _ => Nat.zero_le _
      | some raw' =>
          cases read' : ofText? raw' with
          | none =>
              simp only [judge, readBound_unread read']
              refine .violated (.malformedUntil read') fun w fault => ?_
              cases fault with
              | malformedUntil => exact Nat.le_refl _
              | late read => cases read'.symm.trans read
          | some last =>
              simp only [judge, readBound_read read']
              exact judged_until read'
  | some raw =>
      cases read : ofText? raw with
      | none =>
          simp only [judge, readBound_unread read]
          refine .violated (.malformedFrom read) fun w fault => ?_
          cases fault <;> exact Nat.succ_le_succ (Nat.zero_le _)
      | some first =>
          cases validUntil with
          | none =>
              simp only [judge, readBound_read read]
              exact judged_from read
          | some raw' =>
              cases read' : ofText? raw' with
              | none =>
                  simp only [judge, readBound_read read, readBound_unread read']
                  refine .violated (.malformedUntil read') fun w fault => ?_
                  cases fault with
                  | malformedFrom unread => cases unread.symm.trans read
                  | malformedUntil => exact Nat.le_refl _
                  | inverted => exact Nat.le_add_right 2 1
                  | early => exact Nat.le_add_right 2 2
                  | late read₂ => cases read'.symm.trans read₂
              | some last =>
                  simp only [judge, readBound_read read, readBound_read read']
                  exact judged_both read read'

theorem judge_eq_satisfied_iff :
    judge now validFrom validUntil = .satisfied ↔ Holds now validFrom validUntil := by
  constructor
  · intro verdict
    have judged := judged now validFrom validUntil
    rw [verdict] at judged
    cases judged with
    | satisfied holds => exact holds
  · intro holds
    cases verdict : judge now validFrom validUntil with
    | satisfied => rfl
    | violated v =>
        have judged := judged now validFrom validUntil
        rw [verdict] at judged
        cases judged with
        | violated fault => exact absurd fault holds.no_fault

theorem judge_eq_violated_iff :
    judge now validFrom validUntil = .violated v ↔
      Fault now validFrom validUntil v ∧ ∀ w, Fault now validFrom validUntil w → v.rank ≤ w.rank := by
  have judged := judged now validFrom validUntil
  constructor
  · intro verdict
    rw [verdict] at judged
    cases judged with
    | violated fault first => exact ⟨fault, first⟩
  · rintro ⟨fault, first⟩
    cases verdict : judge now validFrom validUntil with
    | satisfied => exact absurd fault (judge_eq_satisfied_iff.mp verdict).no_fault
    | violated w =>
        rw [verdict] at judged
        cases judged with
        | violated fault' first' => rw [fault'.unique fault (Nat.le_antisymm (first' _ fault) (first _ fault'))]

/-- The verdict is a matter of the faults alone. -/
theorem judge_congr {now' : Instant} {validFrom' validUntil' : Option String}
    (same : ∀ v, Fault now validFrom validUntil v ↔ Fault now' validFrom' validUntil' v) :
    judge now validFrom validUntil = judge now' validFrom' validUntil' := by
  cases verdict : judge now' validFrom' validUntil' with
  | violated v =>
      rw [judge_eq_violated_iff] at verdict ⊢
      simp only [same]
      exact verdict
  | satisfied =>
      cases verdict' : judge now validFrom validUntil with
      | satisfied => rfl
      | violated v =>
          have fault := (same v).mp (judge_eq_violated_iff.mp verdict').1
          exact absurd fault (judge_eq_satisfied_iff.mp verdict).no_fault

theorem SameBound.symm {bound bound' : Option String} (same : SameBound bound bound') :
    SameBound bound' bound := by
  cases same with
  | refl => exact .refl _
  | reread read read' nanos => exact .reread read' read nanos.symm

theorem SameBound.unread {raw : String} {bound : Option String} (same : SameBound (some raw) bound)
    (unread : ofText? raw = none) : bound = some raw := by
  cases same with
  | refl => rfl
  | reread read => cases unread.symm.trans read

theorem SameBound.read {raw : String} {bound : Option String} {t : Instant}
    (same : SameBound (some raw) bound) (read : ofText? raw = some t) :
    ∃ raw' t', bound = some raw' ∧ ofText? raw' = some t' ∧ t'.nanos = t.nanos := by
  cases same with
  | refl => exact ⟨raw, t, rfl, read, rfl⟩
  | reread read₁ read' nanos =>
      cases read.symm.trans read₁
      exact ⟨_, _, rfl, read', nanos.symm⟩

theorem Fault.same {now' : Instant} {validFrom' validUntil' : Option String}
    (fault : Fault now validFrom validUntil v) (nanos : now'.nanos = now.nanos)
    (from' : SameBound validFrom validFrom') (until' : SameBound validUntil validUntil') :
    Fault now' validFrom' validUntil' v := by
  cases fault with
  | missing =>
      cases from'
      cases until'
      exact .missing
  | malformedFrom unread =>
      cases from'.unread unread
      exact .malformedFrom unread
  | malformedUntil unread =>
      cases until'.unread unread
      exact .malformedUntil unread
  | inverted read read' turned =>
      obtain ⟨_, first, rfl, read, same⟩ := from'.read read
      obtain ⟨_, last, rfl, read', same'⟩ := until'.read read'
      exact .inverted read read' (by omega)
  | early read before =>
      obtain ⟨_, first, rfl, read, same⟩ := from'.read read
      exact .early read (by omega)
  | late read after =>
      obtain ⟨_, last, rfl, read, same⟩ := until'.read read
      exact .late read (by omega)

theorem Fault.anytime (fault : Fault now validFrom validUntil v) (input : v.isInputError = true)
    (later : Instant) : Fault later validFrom validUntil v := by
  cases fault with
  | missing => exact .missing
  | malformedFrom unread => exact .malformedFrom unread
  | malformedUntil unread => exact .malformedUntil unread
  | inverted read read' turned => exact .inverted read read' turned
  | early | late => cases input

theorem Fault.earlier (fault : Fault later validFrom validUntil v) (le : now.nanos ≤ later.nanos)
    (inTime : v ≠ .expired) : Fault now validFrom validUntil v := by
  cases fault with
  | missing => exact .missing
  | malformedFrom unread => exact .malformedFrom unread
  | malformedUntil unread => exact .malformedUntil unread
  | inverted read read' turned => exact .inverted read read' turned
  | early read before => exact .early read (Int.lt_of_le_of_lt le before)
  | late => exact absurd rfl inTime

theorem Fault.expired (fault : Fault now validFrom validUntil .expired) (le : now.nanos ≤ later.nanos) :
    Fault later validFrom validUntil .expired := by
  cases fault with
  | late read after => exact .late read (Int.le_trans after le)

theorem isInputError_of_rank (input : v.isInputError = true) (le : w.rank ≤ v.rank) :
    w.isInputError = true := by
  cases w with
  | missingBounds | malformedBound | invertedInterval => rfl
  | notYetValid | expired =>
      cases v with
      | missingBounds | invertedInterval => exact absurd le (by decide)
      | malformedBound bound raw => cases bound <;> exact absurd le (by simp [Violation.rank])
      | notYetValid | expired => cases input

theorem judge_input (input : v.isInputError = true) (now later : Instant)
    (verdict : judge now validFrom validUntil = .violated v) :
    judge later validFrom validUntil = .violated v := by
  obtain ⟨fault, first⟩ := judge_eq_violated_iff.mp verdict
  refine judge_eq_violated_iff.mpr ⟨fault.anytime input later, fun w fault' => ?_⟩
  refine Nat.le_of_not_lt fun sooner => ?_
  have input' := isInputError_of_rank input (Nat.le_of_lt sooner)
  exact Nat.not_le.mpr sooner (first w (fault'.anytime input' now))

theorem judge_expired (le : now.nanos ≤ later.nanos)
    (verdict : judge now validFrom validUntil = .violated .expired) :
    judge later validFrom validUntil = .violated .expired := by
  obtain ⟨fault, first⟩ := judge_eq_violated_iff.mp verdict
  refine judge_eq_violated_iff.mpr ⟨fault.expired le, fun w fault' => ?_⟩
  by_cases late : w = .expired
  · exact late ▸ Nat.le_refl _
  · exact first w (fault'.earlier le late)

theorem judge_satisfied (le : now.nanos ≤ later.nanos)
    (verdict : judge now validFrom validUntil = .satisfied) :
    judge later validFrom validUntil = .satisfied ∨
      judge later validFrom validUntil = .violated .expired := by
  cases verdict' : judge later validFrom validUntil with
  | satisfied => exact .inl rfl
  | violated w =>
      by_cases late : w = .expired
      · exact .inr (late ▸ rfl)
      · have fault := (judge_eq_violated_iff.mp verdict').1.earlier le late
        exact absurd fault (judge_eq_satisfied_iff.mp verdict).no_fault

theorem judge_fails_closed (now : Instant) (validFrom validUntil : Option String) :
    (judge now validFrom validUntil = .satisfied ↔ Holds now validFrom validUntil) ∧
      (∀ v, judge now validFrom validUntil = .violated v ↔
        Fault now validFrom validUntil v ∧ ∀ w, Fault now validFrom validUntil w → v.rank ≤ w.rank) ∧
      (∀ now' validFrom' validUntil', now'.nanos = now.nanos → SameBound validFrom validFrom' →
        SameBound validUntil validUntil' →
        judge now' validFrom' validUntil' = judge now validFrom validUntil) ∧
      (∀ later v, v.isInputError = true →
        (judge now validFrom validUntil = .violated v ↔ judge later validFrom validUntil = .violated v)) ∧
      ∀ later, now.nanos ≤ later.nanos →
        (judge now validFrom validUntil = .violated .expired →
          judge later validFrom validUntil = .violated .expired) ∧
        (judge now validFrom validUntil = .satisfied →
          judge later validFrom validUntil = .satisfied ∨
            judge later validFrom validUntil = .violated .expired) := by
  refine ⟨judge_eq_satisfied_iff, fun v => judge_eq_violated_iff, ?_, fun later v input => ?_,
    fun later le => ⟨judge_expired le, judge_satisfied le⟩⟩
  · intro now' validFrom' validUntil' nanos from' until'
    refine judge_congr fun v => ⟨fun fault => ?_, fun fault => ?_⟩
    · exact fault.same nanos.symm from'.symm until'.symm
    · exact fault.same nanos from' until'
  · exact ⟨judge_input input now later, judge_input input later now⟩

theorem judge_fails_closed_offsets :
    let now : Instant := ⟨1685577600000000000, 7200, by decide, by decide⟩
    let utc : Instant := ⟨1685577600000000000, 0, by decide, by decide⟩
    let later : Instant := ⟨1704067200000000000, -3600, by decide, by decide⟩
    let validFrom := "2023-01-01T00:00:00Z"
    let validUntil := "2024-01-01T01:30:00+01:30"
    judge now (some validFrom) (some validUntil) = .satisfied ∧
      judge utc (some "\t1672531200 ") (some "2023-12-31t19:00:00.000-05:00") = .satisfied ∧
      (judge later (some validFrom) (some validUntil) = .satisfied ∨
        judge later (some validFrom) (some validUntil) = .violated .expired) ∧
      judge now (some " soon ") (some validUntil) = .violated (.malformedBound .validFrom " soon ") ∧
      judge later (some " soon ") (some validUntil) = .violated (.malformedBound .validFrom " soon ") := by
  intro now utc later validFrom validUntil
  let first : Instant := ⟨1672531200000000000, 0, by decide, by decide⟩
  let last : Instant := ⟨1704067200000000000, 5400, by decide, by decide⟩
  let last' : Instant := ⟨1704067200000000000, -18000, by decide, by decide⟩
  have read : ofText? "2023-01-01T00:00:00Z" = some first := by decide
  have read₁ : ofText? "\t1672531200 " = some first := by decide
  have read' : ofText? "2024-01-01T01:30:00+01:30" = some last := by decide
  have read₁' : ofText? "2023-12-31t19:00:00.000-05:00" = some last' := by decide
  have holds : Holds now (some validFrom) (some validUntil) := by
    refine ⟨.inl rfl, ?_, ?_, ?_⟩
    · rintro _ ⟨⟩
      exact ⟨first, read, by decide⟩
    · rintro _ ⟨⟩
      exact ⟨last, read', by decide⟩
    · rintro _ ⟨⟩ _ ⟨⟩ t t' readT readT'
      cases read.symm.trans readT
      cases read'.symm.trans readT'
      decide
  obtain ⟨satisfied, -, same, -, forward⟩ := judge_fails_closed now (some validFrom) (some validUntil)
  obtain ⟨-, violated, -, anytime, -⟩ := judge_fails_closed now (some " soon ") (some validUntil)
  have verdict := satisfied.mpr holds
  have unread :
      judge now (some " soon ") (some validUntil) = .violated (.malformedBound .validFrom " soon ") := by
    refine (violated _).mpr ⟨.malformedFrom (by decide), fun w fault => ?_⟩
    cases fault <;> exact Nat.le_add_left 1 _
  refine ⟨verdict, ?_, (forward later (by decide)).2 verdict, unread, (anytime later _ rfl).mp unread⟩
  exact (same utc _ _ rfl (.reread read read₁ rfl) (.reread read' read₁' rfl)).trans verdict

end Policy

end RetirementLedger

import RetirementLedger.Instant.Basic

namespace RetirementLedger.Instant

theorem firstLocalNano_eq : firstLocalNano = -377705116800000000000 := by decide

theorem lastLocalNano_eq : lastLocalNano = 253402300799999999999 := by decide

theorem of?_eq_some {nanos offset : Int} {t : Instant} (read : of? nanos offset = some t) :
    t.nanos = nanos ∧ t.offset = offset := by
  unfold of? at read
  split at read
  · split at read
    · cases read
      exact ⟨rfl, rfl⟩
    · cases read
  · cases read

theorem eq_of_nanos {t u : Instant} (nanos : t.nanos = u.nanos) (offset : t.offset = u.offset) :
    t = u := by
  cases t
  cases u
  cases nanos
  cases offset
  rfl

theorem isSome_of? {nanos offset : Int} :
    (of? nanos offset).isSome = true ↔
      (-maxOffset ≤ offset ∧ offset ≤ maxOffset) ∧
        firstLocalNano ≤ nanos + offset * secondNanos ∧
        nanos + offset * secondNanos ≤ lastLocalNano := by
  unfold of?
  split
  · next bound =>
      split
      · next onCalendar => simp [bound, onCalendar]
      · next off => simp [bound, off]
  · next unbound => simp [unbound]

theorem truncateToMillis_spec (t : Instant) :
    t.truncateToMillis.nanos = t.nanos / milliNanos * milliNanos ∧
      t.truncateToMillis.offset = t.offset := by
  have cut : t.nanos - t.nanoOfSecond % milliNanos = t.nanos / milliNanos * milliNanos := by
    simp only [nanoOfSecond, milliNanos, secondNanos]
    omega
  -- Offsets are whole seconds and the calendar starts with one, so what is cut away does not lead off it.
  have onCalendar : (of? (t.nanos - t.nanoOfSecond % milliNanos) t.offset).isSome = true := by
    refine isSome_of?.mpr ⟨t.offset_bound, ?_⟩
    obtain ⟨first, last⟩ := t.local_bound
    rw [cut]
    simp only [firstLocalNano_eq, lastLocalNano_eq, milliNanos, secondNanos] at first last ⊢
    omega
  obtain ⟨u, read⟩ := Option.isSome_iff_exists.mp onCalendar
  unfold truncateToMillis
  rw [read, Option.getD_some]
  obtain ⟨nanos, offset⟩ := of?_eq_some read
  exact ⟨nanos.trans cut, offset⟩

theorem unixMillis_truncateToMillis (t : Instant) :
    t.truncateToMillis.unixMillis = t.nanos / milliNanos := by
  unfold unixMillis
  rw [t.truncateToMillis_spec.1]
  exact Int.mul_tdiv_cancel _ (by decide)

theorem ofUnixMillis?_truncateToMillis {t u : Instant}
    (read : ofUnixMillis? t.truncateToMillis.unixMillis = some u) :
    u.nanos = t.nanos / milliNanos * milliNanos := by
  rw [unixMillis_truncateToMillis] at read
  exact (of?_eq_some read).1

theorem unixMillis_of_ofUnixMillis? {millis : Int} {t : Instant}
    (read : ofUnixMillis? millis = some t) : t.unixMillis = millis := by
  rw [unixMillis, (of?_eq_some read).1]
  exact Int.mul_tdiv_cancel _ (by decide)

theorem isSome_ofUnixMillis? {millis : Int} :
    (ofUnixMillis? millis).isSome = true ↔ firstMilli ≤ millis ∧ millis ≤ lastMilli := by
  rw [ofUnixMillis?, isSome_of?]
  simp only [firstLocalNano_eq, lastLocalNano_eq, firstMilli, lastMilli, milliNanos, secondNanos, maxOffset]
  omega

def IsWhole (t : Instant) : Prop := milliNanos ∣ t.nanos

theorem isWhole_truncateToMillis (t : Instant) : t.truncateToMillis.IsWhole := by
  rw [IsWhole, t.truncateToMillis_spec.1]
  exact Int.dvd_mul_left _ _

theorem isWhole_of_ofUnixMillis? {millis : Int} {t : Instant} (read : ofUnixMillis? millis = some t) :
    t.IsWhole := by
  rw [IsWhole, (of?_eq_some read).1]
  exact Int.dvd_mul_left _ _

theorem IsWhole.nanos_eq {t : Instant} (whole : t.IsWhole) : t.nanos = t.unixMillis * milliNanos := by
  obtain ⟨millis, nanos⟩ := whole
  rw [unixMillis, nanos, Int.mul_tdiv_cancel_left _ (by decide), Int.mul_comm]

def utcDate (second : Int) : Calendar.Date := Calendar.Date.ofDayNumber (second / daySeconds + epochDay)

/-- The date in UTC lies in the years -9999 to 9999, whatever the local date is. -/
def HasUtcDate (t : Instant) : Prop := firstLocalNano ≤ t.nanos ∧ t.nanos ≤ lastLocalNano

instance (t : Instant) : Decidable t.HasUtcDate := inferInstanceAs (Decidable (_ ∧ _))

theorem isSome_ofUnixMillis?_truncateToMillis {t : Instant} :
    (ofUnixMillis? t.truncateToMillis.unixMillis).isSome = true ↔ t.HasUtcDate := by
  rw [isSome_ofUnixMillis?, unixMillis_truncateToMillis, HasUtcDate]
  simp only [firstLocalNano_eq, lastLocalNano_eq, firstMilli, lastMilli, milliNanos]
  omega

theorem HasUtcDate.exists_ofUnixMillis? {t : Instant} (dated : t.HasUtcDate) :
    ∃ u, ofUnixMillis? t.truncateToMillis.unixMillis = some u ∧
      u.nanos = t.truncateToMillis.nanos := by
  obtain ⟨u, read⟩ := Option.isSome_iff_exists.mp (isSome_ofUnixMillis?_truncateToMillis.mpr dated)
  refine ⟨u, read, ?_⟩
  rw [ofUnixMillis?_truncateToMillis read, t.truncateToMillis_spec.1]

theorem unixMillis_cases (t : Instant) :
    0 ≤ t.nanos ∧ t.unixMillis * milliNanos ≤ t.nanos ∧ t.nanos < (t.unixMillis + 1) * milliNanos ∨
      t.nanos ≤ 0 ∧ t.nanos ≤ t.unixMillis * milliNanos ∧ (t.unixMillis - 1) * milliNanos < t.nanos := by
  simp only [unixMillis, milliNanos]
  rcases Int.le_total 0 t.nanos with after | before
  · rw [Int.tdiv_eq_ediv_of_nonneg after]
    omega
  · have negated : t.nanos.tdiv 1000000 = -((-t.nanos) / 1000000) := by
      rw [← Int.tdiv_eq_ediv_of_nonneg (by omega), Int.neg_tdiv, Int.neg_neg]
    rw [negated]
    omega

/-- What is cut off may be all that keeps an instant before the calendar, but never brings one after it back. -/
theorem ofUnixMillis?_unixMillis_eq_none_iff {t : Instant} :
    ofUnixMillis? t.unixMillis = none ↔ t.nanos ≤ firstLocalNano - milliNanos ∨ lastLocalNano < t.nanos := by
  have cut := t.unixMillis_cases
  rw [← Option.not_isSome_iff_eq_none, isSome_ofUnixMillis?]
  simp only [firstLocalNano_eq, lastLocalNano_eq, firstMilli, lastMilli, milliNanos] at cut ⊢
  omega

end RetirementLedger.Instant

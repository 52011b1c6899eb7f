import RetirementLedger.Proofs.Calendar
import RetirementLedger.Proofs.Instant

namespace RetirementLedger.Instant

structure IsMillisOf (cut t : Instant) : Prop where
  offset : cut.offset = t.offset
  whole : cut.IsWhole
  notAfter : cut.nanos ≤ t.nanos
  latest : ∀ u : Instant, u.IsWhole → u.nanos ≤ t.nanos → u.nanos ≤ cut.nanos

theorem isMillisOf_truncateToMillis (t : Instant) : t.truncateToMillis.IsMillisOf t := by
  obtain ⟨nanos, offset⟩ := t.truncateToMillis_spec
  refine ⟨offset, t.isWhole_truncateToMillis, ?_, fun u whole notAfter => ?_⟩
  · rw [nanos]
    exact Int.ediv_mul_le t.nanos (by decide)
  · rw [whole.nanos_eq] at notAfter ⊢
    rw [nanos]
    exact Int.mul_le_mul_of_nonneg_right (Int.le_ediv_of_mul_le (by decide) notAfter) (by decide)

theorem IsMillisOf.eq {t cut cut' : Instant} (cuts : cut.IsMillisOf t) (cuts' : cut'.IsMillisOf t) :
    cut = cut' :=
  eq_of_nanos
    (Int.le_antisymm (cuts'.latest cut cuts.whole cuts.notAfter)
      (cuts.latest cut' cuts'.whole cuts'.notAfter))
    (cuts.offset.trans cuts'.offset.symm)

theorem IsWhole.truncateToMillis_eq {t : Instant} (whole : t.IsWhole) : t.truncateToMillis = t :=
  t.isMillisOf_truncateToMillis.eq ⟨rfl, whole, Int.le_refl _, fun _ _ notAfter => notAfter⟩

theorem toInt_unixMillis64 (t : Instant) : t.unixMillis64.toInt = t.unixMillis := by
  obtain ⟨⟨low, high⟩, first, last⟩ := And.intro t.offset_bound t.local_bound
  have cut := t.unixMillis_cases
  refine Int64.toInt_ofIntClamp ?_ ?_
  · rw [Int64.toInt_minValue]
    simp only [firstLocalNano_eq, maxOffset, milliNanos, secondNanos] at *
    omega
  · rw [Int64.toInt_maxValue]
    simp only [lastLocalNano_eq, maxOffset, milliNanos, secondNanos] at *
    omega

theorem hasUtcDate_iff {t : Instant} :
    t.HasUtcDate ↔ -9999 ≤ (utcDate (t.nanos / secondNanos)).year ∧
      (utcDate (t.nanos / secondNanos)).year ≤ 9999 := by
  have years (day : Int) : -9999 ≤ Calendar.yearOf day ∧ Calendar.yearOf day ≤ 9999 ↔
      Calendar.yearStart (-9999) ≤ day ∧ day < Calendar.yearStart 10000 := by
    rw [← Calendar.le_yearOf_iff, ← Int.not_le, ← Calendar.le_yearOf_iff]
    omega
  change t.HasUtcDate ↔ -9999 ≤ Calendar.yearOf (t.nanos / secondNanos / daySeconds + epochDay) ∧
    Calendar.yearOf (t.nanos / secondNanos / daySeconds + epochDay) ≤ 9999
  rw [years, HasUtcDate, firstLocalNano, lastLocalNano]
  generalize Calendar.yearStart (-9999) = start
  generalize Calendar.yearStart 10000 = stop
  simp only [daySeconds, secondNanos]
  omega

theorem ofUnixMillis_eq_ok_iff {millis : Int} {t : Instant} :
    ofUnixMillis millis = .ok t ↔ ofUnixMillis? millis = some t := by
  unfold ofUnixMillis
  split
  · next u read => rw [read, Except.ok.injEq, Option.some.injEq]
  · next missing =>
      rw [missing]
      constructor <;> intro read <;> cases read

theorem ofUnixMillis_of_none {millis : Int} (missing : ofUnixMillis? millis = none) :
    ofUnixMillis millis = .error (millisFailure millis) := by
  rw [ofUnixMillis, missing]

variable {t : Instant}

theorem HasUtcDate.exists_ofUnixMillis (dated : t.HasUtcDate) :
    ∃ u, ofUnixMillis t.truncateToMillis.unixMillis = .ok u ∧ u.nanos = t.truncateToMillis.nanos := by
  obtain ⟨u, read, nanos⟩ := dated.exists_ofUnixMillis?
  exact ⟨u, ofUnixMillis_eq_ok_iff.mpr read, nanos⟩

theorem ofUnixMillis_of_not_hasUtcDate (undated : ¬ t.HasUtcDate) :
    ofUnixMillis t.truncateToMillis.unixMillis = .error (millisFailure t.truncateToMillis.unixMillis) := by
  refine ofUnixMillis_of_none ?_
  rwa [← Option.not_isSome_iff_eq_none, isSome_ofUnixMillis?_truncateToMillis]

theorem exists_ofUnixMillis_iff {millis : Int} :
    (∃ t, ofUnixMillis millis = .ok t) ↔ firstMilli ≤ millis ∧ millis ≤ lastMilli := by
  simp only [ofUnixMillis_eq_ok_iff, ← Option.isSome_iff_exists, isSome_ofUnixMillis?]

theorem millis_exact (t : Instant) :
    (t.truncateToMillis.IsMillisOf t ∧ t.truncateToMillis.truncateToMillis = t.truncateToMillis) ∧
    (t.truncateToMillis.unixMillis64.toInt = t.nanos.fdiv milliNanos ∧
      t.truncateToMillis.unixMillis64.toInt = t.truncateToMillis.nanos.tdiv milliNanos) ∧
    (-9999 ≤ (utcDate (t.nanos / secondNanos)).year ∧ (utcDate (t.nanos / secondNanos)).year ≤ 9999 →
      ∃ u, ofUnixMillis t.truncateToMillis.unixMillis64.toInt = .ok u ∧
        u.nanos = t.truncateToMillis.nanos) ∧
    (¬ (-9999 ≤ (utcDate (t.nanos / secondNanos)).year ∧
        (utcDate (t.nanos / secondNanos)).year ≤ 9999) →
      ofUnixMillis t.truncateToMillis.unixMillis64.toInt = .error (.persistence ("invalid timestamp " ++
        toString t.truncateToMillis.unixMillis64.toInt ++ ": timestamp was not in range"))) ∧
    ∀ millis : Int64,
      ((∃ u, ofUnixMillis millis.toInt = .ok u) ↔
        -377705116800000 ≤ millis.toInt ∧ millis.toInt ≤ 253402300799999) ∧
      ∀ u, ofUnixMillis millis.toInt = .ok u → u.unixMillis64 = millis := by
  rw [toInt_unixMillis64, ← hasUtcDate_iff]
  refine ⟨⟨t.isMillisOf_truncateToMillis, t.isWhole_truncateToMillis.truncateToMillis_eq⟩, ⟨?_, rfl⟩,
    HasUtcDate.exists_ofUnixMillis, ofUnixMillis_of_not_hasUtcDate,
    fun millis => ⟨exists_ofUnixMillis_iff, fun u read => ?_⟩⟩
  · rw [unixMillis_truncateToMillis, Int.fdiv_eq_ediv_of_nonneg _ (by decide)]
  · rw [← Int64.toInt_inj, toInt_unixMillis64]
    exact unixMillis_of_ofUnixMillis? (ofUnixMillis_eq_ok_iff.mp read)

theorem millis_exact_at_edges :
    let t : Instant := ⟨-1, 3600, by decide, by decide⟩
    let late : Instant := ⟨253402302600000000000, -3600, by decide, by decide⟩
    t.truncateToMillis.unixMillis64.toInt = -1 ∧
      (∃ u, ofUnixMillis t.truncateToMillis.unixMillis64.toInt = .ok u ∧
        u.nanos = t.truncateToMillis.nanos ∧ u.unixMillis64 = t.truncateToMillis.unixMillis64) ∧
      utcDate (late.nanos / secondNanos) = ⟨10000, 1, 1⟩ ∧
      ofUnixMillis late.truncateToMillis.unixMillis64.toInt = .error (.persistence ("invalid timestamp " ++
        toString late.truncateToMillis.unixMillis64.toInt ++ ": timestamp was not in range")) := by
  intro t late
  obtain ⟨-, ⟨floor, -⟩, dated, -, back⟩ := millis_exact t
  obtain ⟨u, read, same⟩ := dated (by decide)
  have undated := (millis_exact late).2.2.2.1
  refine ⟨floor.trans (by decide), ⟨u, read, same, (back _).2 u read⟩, by decide, undated (by decide)⟩

end RetirementLedger.Instant

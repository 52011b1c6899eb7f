import RetirementLedger.Proofs.Query.Criteria
import RetirementLedger.Proofs.Query.Filters
import RetirementLedger.Proofs.Readings

namespace RetirementLedger

namespace Instant

/-- The bound is another instant, and becomes this one when it is cut to milliseconds. -/
structure IsCutTo (bound t : Instant) : Prop where
  other : bound.nanos ≠ t.nanos
  cut : bound.unixMillis * milliNanos = t.nanos

instance (bound t : Instant) : Decidable (bound.IsCutTo t) :=
  decidable_of_iff (bound.nanos ≠ t.nanos ∧ bound.unixMillis * milliNanos = t.nanos)
    ⟨fun both => ⟨both.1, both.2⟩, fun cut => ⟨cut.other, cut.cut⟩⟩

section
variable {bound low high t : Instant}

theorem IsCutTo.not_isWhole (cut : bound.IsCutTo t) : ¬ bound.IsWhole :=
  fun whole => cut.other (whole.nanos_eq.trans cut.cut)

theorem IsCutTo.iff_of_whole (whole : t.IsWhole) :
    bound.IsCutTo t ↔ bound.nanos ≠ t.nanos ∧ bound.unixMillis = t.unixMillis := by
  have nanos := whole.nanos_eq
  constructor
  · rintro ⟨other, cut⟩
    simp only [milliNanos] at nanos cut
    exact ⟨other, by omega⟩
  · rintro ⟨other, same⟩
    exact ⟨other, by rw [same, nanos]⟩

theorem compare_millis (whole : t.IsWhole) :
    (bound.unixMillis < t.unixMillis ↔ bound.nanos < t.nanos ∧ ¬ bound.IsCutTo t) ∧
      (t.unixMillis < bound.unixMillis ↔ t.nanos < bound.nanos ∧ ¬ bound.IsCutTo t) ∧
      (t.unixMillis = bound.unixMillis ↔ t.nanos = bound.nanos ∨ bound.IsCutTo t) := by
  have nanos := whole.nanos_eq
  have near := bound.unixMillis_cases
  rw [IsCutTo.iff_of_whole whole]
  simp only [milliNanos] at nanos near
  refine ⟨?_, ?_, ?_⟩
  all_goals omega

theorem unixMillis_mono (ordered : low.nanos ≤ high.nanos) : low.unixMillis ≤ high.unixMillis := by
  have lowNear := low.unixMillis_cases
  have highNear := high.unixMillis_cases
  simp only [milliNanos] at lowNear highNear
  omega

theorem between_millis_iff (whole : t.IsWhole) (ordered : low.nanos ≤ high.nanos) :
    low.unixMillis ≤ t.unixMillis ∧ t.unixMillis ≤ high.unixMillis ↔
      low.nanos ≤ t.nanos ∧ t.nanos ≤ high.nanos ∨ low.IsCutTo t ∨ high.IsCutTo t := by
  have nanos := whole.nanos_eq
  have lowNear := low.unixMillis_cases
  have highNear := high.unixMillis_cases
  rw [IsCutTo.iff_of_whole whole, IsCutTo.iff_of_whole whole]
  simp only [milliNanos] at nanos lowNear highNear
  omega

end

end Instant

namespace Criterion

theorem Means.exists_compile {c : Criterion} {meaning : Retirement → Prop} (means : c.Means meaning) :
    ∃ p, c.compile = .ok p ∧ ∀ r : Retirement, p.holds r = true ↔ meaning r := by
  have compiled := c.compiled
  generalize c.compile = result at compiled
  cases compiled with
  | @predicate p sense same => exact ⟨p, rfl, fun r => (same r).trans means.asserted⟩
  | refused senseless => exact absurd ⟨meaning, means⟩ senseless

end Criterion

namespace RetirementQuery

def unbounded (q : RetirementQuery) : RetirementQuery :=
  { q with retiredAfter := none, retiredBefore := none }

theorem admits_iff {q : RetirementQuery} {r : Retirement} :
    q.Admits r ↔ q.unbounded.Admits r ∧ (∀ t ∈ q.retiredAfter, t.unixMillis < r.retiredAtMillis) ∧
      ∀ t ∈ q.retiredBefore, r.retiredAtMillis < t.unixMillis := by
  constructor
  · rintro ⟨id, idPrefix, reason, reasonPrefix, after, before⟩
    exact ⟨⟨id, idPrefix, reason, reasonPrefix, fun t given => (by cases given),
      fun t given => (by cases given)⟩, after, before⟩
  · rintro ⟨⟨id, idPrefix, reason, reasonPrefix, -, -⟩, after, before⟩
    exact ⟨id, idPrefix, reason, reasonPrefix, after, before⟩

end RetirementQuery

namespace Retirement

open Criterion (Means)

/-- A bound lets through what lies on its side of it, and a bound that is no whole millisecond goes wrong about
just the one millisecond that it is cut to: it is passed over by both exclusive bounds and let in by the
inclusive ones. -/
theorem bounds_exact (agreementId reason retiredBy : String) (instant : Instant) :
    let r := create agreementId reason retiredBy instant
    let t := r.retiredAt
    (∀ q : RetirementQuery, q.HasLimit → ∃ s, q.compile = .ok s ∧
      (s.holds r = true ↔ q.unbounded.Admits r ∧
        (∀ a ∈ q.retiredAfter, a.nanos < t.nanos ∧ ¬ a.IsCutTo t) ∧
        ∀ b ∈ q.retiredBefore, t.nanos < b.nanos ∧ ¬ b.IsCutTo t)) ∧
    (∀ raw a, Instant.ofText? raw = some a →
      (∃ p, Criterion.compile ⟨.retiredAt, .gt, .one raw⟩ = .ok p ∧
        (p.holds r = true ↔ a.nanos < t.nanos ∧ ¬ a.IsCutTo t)) ∧
      (∃ p, Criterion.compile ⟨.retiredAt, .lt, .one raw⟩ = .ok p ∧
        (p.holds r = true ↔ t.nanos < a.nanos ∧ ¬ a.IsCutTo t)) ∧
      ∃ p, Criterion.compile ⟨.retiredAt, .eq, .one raw⟩ = .ok p ∧
        (p.holds r = true ↔ t.nanos = a.nanos ∨ a.IsCutTo t)) ∧
    (∀ first last a b, Instant.ofText? first = some a → Instant.ofText? last = some b →
      a.nanos ≤ b.nanos → ∃ p, Criterion.compile ⟨.retiredAt, .between, .many [first, last]⟩ = .ok p ∧
        (p.holds r = true ↔ a.nanos ≤ t.nanos ∧ t.nanos ≤ b.nanos ∨ a.IsCutTo t ∨ b.IsCutTo t)) ∧
    ∀ bound : Instant, bound.IsWhole → ¬ bound.IsCutTo t := by
  intro r t
  have whole : t.IsWhole := instant.isWhole_truncateToMillis
  refine ⟨fun q inside => ?_, fun raw a read => ⟨?_, ?_, ?_⟩,
    fun first last a b low high ordered => ?_, fun bound exact cut => cut.not_isWhole exact⟩
  · obtain ⟨s, compiled⟩ := RetirementQuery.exists_compile inside
    refine ⟨s, compiled, ?_⟩
    rw [RetirementQuery.holds_of_compile compiled, RetirementQuery.admits_iff]
    simp only [retiredAtMillis, (Instant.compare_millis whole).1, (Instant.compare_millis whole).2.1, r, t]
  · obtain ⟨p, compiled, same⟩ := (Means.atGt read).exists_compile
    exact ⟨p, compiled, (same r).trans (Instant.compare_millis whole).1⟩
  · obtain ⟨p, compiled, same⟩ := (Means.atLt read).exists_compile
    exact ⟨p, compiled, (same r).trans (Instant.compare_millis whole).2.1⟩
  · obtain ⟨p, compiled, same⟩ := (Means.atEq read).exists_compile
    exact ⟨p, compiled, (same r).trans (Instant.compare_millis whole).2.2⟩
  · obtain ⟨p, compiled, same⟩ :=
      (Means.atBetween low high (Instant.unixMillis_mono ordered)).exists_compile
    exact ⟨p, compiled, (same r).trans (Instant.between_millis_iff whole ordered)⟩

theorem bounds_exact_before_epoch :
    let r := create "a-1" "MANUAL" "alice" ⟨-1500000, 0, by decide, by decide⟩
    let q : RetirementQuery :=
      { retiredAfter := some ⟨-3000000, 0, by decide, by decide⟩
        retiredBefore := some ⟨-1000000, 0, by decide, by decide⟩ }
    (∃ s, q.compile = .ok s ∧ s.holds r = true) ∧
      (∃ p, Criterion.compile ⟨.retiredAt, .gt, .one "1969-12-31T23:59:59.9975Z"⟩ = .ok p ∧
        p.holds r = false) ∧
      ∃ p, Criterion.compile ⟨.retiredAt, .between,
        .many ["1969-12-31T23:59:59.9971Z", "1969-12-31T23:59:59.999Z"]⟩ = .ok p ∧
          p.holds r = true := by
  intro r q
  obtain ⟨query, single, between, -⟩ :=
    bounds_exact "a-1" "MANUAL" "alice" ⟨-1500000, 0, by decide, by decide⟩
  refine ⟨?_, ?_, ?_⟩
  · obtain ⟨s, compiled, same⟩ := query q (by decide)
    refine ⟨s, compiled, same.mpr ⟨⟨?_, ?_, ?_, ?_, ?_, ?_⟩, ?_, ?_⟩⟩
    all_goals intro value given; cases given
    · decide
    · decide
  · obtain ⟨p, compiled, same⟩ :=
      (single "1969-12-31T23:59:59.9975Z" ⟨-2500000, 0, by decide, by decide⟩ (by decide)).1
    exact ⟨p, compiled, Bool.eq_false_iff.mpr fun holds => absurd (same.mp holds) (by decide)⟩
  · obtain ⟨p, compiled, same⟩ :=
      between "1969-12-31T23:59:59.9971Z" "1969-12-31T23:59:59.999Z"
        ⟨-2900000, 0, by decide, by decide⟩ ⟨-1000000, 0, by decide, by decide⟩ (by decide) (by decide)
        (by decide)
    exact ⟨p, compiled, same.mpr (by decide)⟩

theorem bounds_cut_to_millis :
    let late := create "a-1" "MANUAL" "alice" ⟨1000000, 0, by decide, by decide⟩
    let early := create "a-2" "MANUAL" "alice" ⟨-1000000, 0, by decide, by decide⟩
    let above : Instant := ⟨1500000, 0, by decide, by decide⟩
    let below : Instant := ⟨-1500000, 0, by decide, by decide⟩
    let further : Instant := ⟨2000000, 0, by decide, by decide⟩
    (below.nanos < late.retiredAt.nanos ∧ late.retiredAt.nanos < above.nanos ∧
      ∃ s, { retiredAfter := some below, retiredBefore := some above : RetirementQuery }.compile = .ok s ∧
        s.holds late = false ∧ s.holds early = false) ∧
      (below.nanos < early.retiredAt.nanos ∧ Instant.ofText? "1969-12-31T23:59:59.9985Z" = some below ∧
        ∃ p, Criterion.compile ⟨.retiredAt, .gt, .one "1969-12-31T23:59:59.9985Z"⟩ = .ok p ∧
          p.holds early = false) ∧
      (late.retiredAt.nanos < above.nanos ∧ Instant.ofText? "1970-01-01T00:00:00.0015Z" = some above ∧
        (∃ p, Criterion.compile ⟨.retiredAt, .lt, .one "1970-01-01T00:00:00.0015Z"⟩ = .ok p ∧
          p.holds late = false) ∧
        ∃ p, Criterion.compile ⟨.retiredAt, .eq, .one "1970-01-01T00:00:00.0015Z"⟩ = .ok p ∧
          p.holds late = true) ∧
      (Instant.ofText? "1970-01-01T00:00:00.002Z" = some further ∧
        ∃ p, Criterion.compile ⟨.retiredAt, .between,
          .many ["1970-01-01T00:00:00.0015Z", "1970-01-01T00:00:00.002Z"]⟩ = .ok p ∧
            p.holds late = true) :=
  ⟨⟨by decide, by decide,
      ⟨[.atGt (-1), .atLt 1], 0, 50, .retiredAt, .ascending, by decide⟩, by decide, by decide, by decide⟩,
    ⟨by decide, by decide, .atGt (-1), by decide, by decide⟩,
    ⟨by decide, by decide, ⟨.atLt 1, by decide, by decide⟩, .atEq 1, by decide, by decide⟩,
    by decide, .atBetween 1 2, by decide, by decide⟩

end Retirement

end RetirementLedger

import Mathlib.Data.List.Basic
import RetirementLedger.Proofs.Pattern
import RetirementLedger.Query.Spec

namespace RetirementLedger

def CriterionValue.texts : CriterionValue → List String
  | .one value => [value]
  | .many values => values

namespace Criterion

inductive Means : Criterion → (Retirement → Prop) → Prop
  | textEq (field : TextField) (value : String) :
      Means ⟨.text field, .eq, .one value⟩ fun r => field.of r = value
  | textLike (field : TextField) (pattern : String) :
      Means ⟨.text field, .like, .one pattern⟩ fun r =>
        Like.Shares pattern.toList (field.of r).toList
  | textInOne (field : TextField) (value : String) :
      Means ⟨.text field, .isIn, .one value⟩ fun r => field.of r = value
  | textIn (field : TextField) {values : List String} (filled : values ≠ []) :
      Means ⟨.text field, .isIn, .many values⟩ fun r => field.of r ∈ values
  | atEq {raw : String} {t : Instant} (read : Instant.ofText? raw = some t) :
      Means ⟨.retiredAt, .eq, .one raw⟩ fun r => r.retiredAtMillis = t.unixMillis
  | atGt {raw : String} {t : Instant} (read : Instant.ofText? raw = some t) :
      Means ⟨.retiredAt, .gt, .one raw⟩ fun r => t.unixMillis < r.retiredAtMillis
  | atLt {raw : String} {t : Instant} (read : Instant.ofText? raw = some t) :
      Means ⟨.retiredAt, .lt, .one raw⟩ fun r => r.retiredAtMillis < t.unixMillis
  | atBetween {first last : String} {t u : Instant} (low : Instant.ofText? first = some t)
      (high : Instant.ofText? last = some u) (ordered : t.unixMillis ≤ u.unixMillis) :
      Means ⟨.retiredAt, .between, .many [first, last]⟩ fun r =>
        t.unixMillis ≤ r.retiredAtMillis ∧ r.retiredAtMillis ≤ u.unixMillis

def MakesSense (c : Criterion) : Prop := ∃ meaning, c.Means meaning

def Says (c : Criterion) (r : Retirement) : Prop := ∃ meaning, c.Means meaning ∧ meaning r

def unreadable (raw : String) : Failure := .invalidArgument ("invalid retired_at timestamp: " ++ raw)

/-- The failure is about this criterion: it names its field and operator, or one of its values that is no
timestamp. -/
inductive IsFailureOf (c : Criterion) : Failure → Prop
  | form (detail : String) : IsFailureOf c (c.refuse detail)
  | unreadable {raw : String} (given : raw ∈ c.value.texts) (unread : Instant.ofText? raw = none) :
      IsFailureOf c (unreadable raw)

variable {c : Criterion}

theorem IsFailureOf.exists_invalidArgument {f : Failure} (own : c.IsFailureOf f) :
    ∃ detail, f = .invalidArgument detail := by
  cases own with
  | form detail => exact ⟨_, rfl⟩
  | unreadable given unread => exact ⟨_, rfl⟩

theorem Means.unique {first second : Retirement → Prop} (means : c.Means first)
    (also : c.Means second) : first = second := by
  have same {raw : String} {t u : Instant} (read : Instant.ofText? raw = some t)
      (again : Instant.ofText? raw = some u) : t = u := Option.some.inj (read.symm.trans again)
  cases means with
  | textEq | textLike | textInOne | textIn => cases also; rfl
  | atEq read => cases also with | atEq again => rw [same read again]
  | atGt read => cases also with | atGt again => rw [same read again]
  | atLt read => cases also with | atLt again => rw [same read again]
  | atBetween low high => cases also with | atBetween low' high' => rw [same low low', same high high']

theorem Means.asserted {meaning : Retirement → Prop} (means : c.Means meaning) {r : Retirement} :
    c.Says r ↔ meaning r := by
  constructor
  · rintro ⟨other, also, said⟩
    rwa [means.unique also]
  · exact fun said => ⟨meaning, means, said⟩

inductive Compiled (c : Criterion) : Except Failure Predicate → Prop
  | predicate {p : Predicate} (sense : c.MakesSense)
      (same : ∀ r : Retirement, p.holds r = true ↔ c.Says r) : Compiled c (.ok p)
  | refused {f : Failure} (senseless : ¬ c.MakesSense) (own : c.IsFailureOf f) : Compiled c (.error f)

theorem Means.compiled {meaning : Retirement → Prop} (means : c.Means meaning) {p : Predicate}
    (same : ∀ r : Retirement, p.holds r = true ↔ meaning r) : c.Compiled (.ok p) :=
  .predicate ⟨meaning, means⟩ fun r => (same r).trans means.asserted.symm

theorem readMillis_cases (raw : String) :
    (∃ t, Instant.ofText? raw = some t ∧ readMillis raw = .ok t.unixMillis) ∨
      Instant.ofText? raw = none ∧ readMillis raw = .error (unreadable raw) := by
  unfold readMillis
  cases read : Instant.ofText? raw with
  | some t => exact .inl ⟨t, rfl, rfl⟩
  | none => exact .inr ⟨rfl, rfl⟩

theorem compiled_text (field : TextField) (operator : Operator) (value : CriterionValue) :
    Compiled ⟨.text field, operator, value⟩ (compile ⟨.text field, operator, value⟩) := by
  cases operator with
  | eq =>
      cases value with
      | one value => exact Means.compiled (.textEq field value) fun r => by simp [Predicate.holds]
      | many values => exact .refused (by rintro ⟨_, ⟨⟩⟩) (.form _)
  | like =>
      cases value with
      | one pattern => exact Means.compiled (.textLike field pattern) fun r => Like.shares_iff.symm
      | many values => exact .refused (by rintro ⟨_, ⟨⟩⟩) (.form _)
  | isIn =>
      cases value with
      | one value => exact Means.compiled (.textInOne field value) fun r => by simp [Predicate.holds]
      | many values =>
          cases values with
          | nil => exact .refused (by rintro ⟨_, means⟩; cases means; contradiction) (.form _)
          | cons value rest =>
              exact Means.compiled (.textIn field (List.cons_ne_nil value rest)) fun r => by
                simp [Predicate.holds]
  | gt => exact .refused (by rintro ⟨_, ⟨⟩⟩) (.form _)
  | lt => exact .refused (by rintro ⟨_, ⟨⟩⟩) (.form _)
  | between => exact .refused (by rintro ⟨_, ⟨⟩⟩) (.form _)

theorem compiled_single {raw : String} {predicate : Int → Predicate} (asserts : Int → Retirement → Prop)
    (given : raw ∈ c.value.texts)
    (means : ∀ t, Instant.ofText? raw = some t → c.Means (asserts t.unixMillis))
    (needed : ∀ meaning, c.Means meaning → ∃ t, Instant.ofText? raw = some t)
    (same : ∀ millis r, (predicate millis).holds r = true ↔ asserts millis r) :
    c.Compiled (do return predicate (← readMillis raw)) := by
  rcases readMillis_cases raw with ⟨t, read, millis⟩ | ⟨unread, millis⟩
  · rw [millis]
    exact (means t read).compiled (same t.unixMillis)
  · rw [millis]
    refine .refused ?_ (.unreadable given unread)
    rintro ⟨meaning, means⟩
    obtain ⟨t, read⟩ := needed meaning means
    cases unread.symm.trans read

theorem compiled_between (values : List String) :
    Compiled ⟨.retiredAt, .between, .many values⟩ (compile ⟨.retiredAt, .between, .many values⟩) := by
  rcases values with _ | ⟨first, _ | ⟨last, _ | ⟨third, rest⟩⟩⟩
  · exact .refused (by rintro ⟨_, ⟨⟩⟩) (.form _)
  · exact .refused (by rintro ⟨_, ⟨⟩⟩) (.form _)
  · simp only [compile, compileAt]
    rcases readMillis_cases first with ⟨t, low, millis⟩ | ⟨unread, millis⟩
    · rw [millis]
      rcases readMillis_cases last with ⟨u, high, millis⟩ | ⟨unread, millis⟩
      · rw [millis]
        by_cases ordered : t.unixMillis ≤ u.unixMillis
        · simp only [bind, Except.bind, if_pos ordered]
          exact Means.compiled (.atBetween low high ordered) fun r => by simp [Predicate.holds]
        · simp only [bind, Except.bind, if_neg ordered]
          refine .refused ?_ (.form _)
          rintro ⟨_, means⟩
          cases means with
          | atBetween low' high' ordered' =>
              cases low.symm.trans low'
              cases high.symm.trans high'
              exact ordered ordered'
      · rw [millis]
        refine .refused ?_ (.unreadable (List.mem_cons_of_mem _ (.head _)) unread)
        rintro ⟨_, means⟩
        cases means with
        | atBetween low high ordered => cases unread.symm.trans high
    · rw [millis]
      refine .refused ?_ (.unreadable (.head _) unread)
      rintro ⟨_, means⟩
      cases means with
      | atBetween low high ordered => cases unread.symm.trans low
  · exact .refused (by rintro ⟨_, ⟨⟩⟩) (.form _)

theorem compiled_at (operator : Operator) (value : CriterionValue) :
    Compiled ⟨.retiredAt, operator, value⟩ (compile ⟨.retiredAt, operator, value⟩) := by
  cases operator with
  | eq =>
      cases value with
      | one raw =>
          refine compiled_single (fun millis r => r.retiredAtMillis = millis) (.head _)
            (fun t read => .atEq read) ?_ fun millis r => by simp [Predicate.holds]
          intro meaning means
          cases means with
          | atEq read => exact ⟨_, read⟩
      | many values => exact .refused (by rintro ⟨_, ⟨⟩⟩) (.form _)
  | gt =>
      cases value with
      | one raw =>
          refine compiled_single (fun millis r => millis < r.retiredAtMillis) (.head _)
            (fun t read => .atGt read) ?_ fun millis r => by simp [Predicate.holds]
          intro meaning means
          cases means with
          | atGt read => exact ⟨_, read⟩
      | many values => exact .refused (by rintro ⟨_, ⟨⟩⟩) (.form _)
  | lt =>
      cases value with
      | one raw =>
          refine compiled_single (fun millis r => r.retiredAtMillis < millis) (.head _)
            (fun t read => .atLt read) ?_ fun millis r => by simp [Predicate.holds]
          intro meaning means
          cases means with
          | atLt read => exact ⟨_, read⟩
      | many values => exact .refused (by rintro ⟨_, ⟨⟩⟩) (.form _)
  | between =>
      cases value with
      | one raw => exact .refused (by rintro ⟨_, ⟨⟩⟩) (.form _)
      | many values => exact compiled_between values
  | like => exact .refused (by rintro ⟨_, ⟨⟩⟩) (.form _)
  | isIn => exact .refused (by rintro ⟨_, ⟨⟩⟩) (.form _)

theorem compiled (c : Criterion) : c.Compiled c.compile := by
  obtain ⟨field, operator, value⟩ := c
  cases field with
  | text field => exact compiled_text field operator value
  | retiredAt => exact compiled_at operator value

structure FirstSenseless (criteria : List Criterion) (c : Criterion) (f : Failure) : Prop where
  first : ∃ before after, criteria = before ++ c :: after ∧ ∀ b ∈ before, b.MakesSense
  senseless : ¬ c.MakesSense
  failure : c.compile = .error f
  own : c.IsFailureOf f

inductive AllCompiled (criteria : List Criterion) : Except Failure (List Predicate) → Prop
  | predicates {ps : List Predicate} (sense : ∀ c ∈ criteria, c.MakesSense)
      (same : ∀ r : Retirement, ps.all (·.holds r) = true ↔ ∀ c ∈ criteria, c.Says r) :
      AllCompiled criteria (.ok ps)
  | refused {c : Criterion} {f : Failure} (first : FirstSenseless criteria c f) :
      AllCompiled criteria (.error f)

theorem FirstSenseless.cons {criteria : List Criterion} {d : Criterion} {f : Failure}
    (first : FirstSenseless criteria d f) (sense : c.MakesSense) : FirstSenseless (c :: criteria) d f := by
  obtain ⟨⟨before, after, split, earlier⟩, senseless, failure, own⟩ := first
  exact ⟨⟨c :: before, after, by rw [split, List.cons_append],
    List.forall_mem_cons.mpr ⟨sense, earlier⟩⟩, senseless, failure, own⟩

theorem allCompiled (criteria : List Criterion) : AllCompiled criteria (criteria.mapM compile) := by
  induction criteria with
  | nil => exact .predicates (fun c member => by cases member) fun r => by simp
  | cons c rest ih =>
      rw [List.mapM_cons]
      have compiled := c.compiled
      cases result : c.compile with
      | error f =>
          rw [result] at compiled
          cases compiled with
          | refused senseless own =>
              exact .refused ⟨⟨[], rest, rfl, fun b member => by cases member⟩, senseless, result, own⟩
      | ok p =>
          rw [result] at compiled
          cases compiled with
          | predicate sense same =>
              generalize rest.mapM compile = others at ih
              cases ih with
              | predicates senses sames =>
                  refine .predicates (List.forall_mem_cons.mpr ⟨sense, senses⟩) fun r => ?_
                  rw [List.all_cons, Bool.and_eq_true, same, sames, List.forall_mem_cons]
              | refused first => exact .refused (first.cons sense)

end Criterion

namespace QuerySpec

variable {spec : QuerySpec}

def HasLimit (spec : QuerySpec) : Prop := 1 ≤ spec.limit.toNat ∧ spec.limit.toNat ≤ maxLimit

instance (spec : QuerySpec) : Decidable spec.HasLimit := inferInstanceAs (Decidable (_ ∧ _))

def limitFailure (spec : QuerySpec) : String :=
  "limit MUST be in [1, " ++ toString maxLimit ++ "], got " ++ toString spec.limit.toNat

inductive Compiled (spec : QuerySpec) : Except Failure Selection → Prop
  | selection {s : Selection} (sense : ∀ c ∈ spec.criteria, c.MakesSense) (inside : spec.HasLimit)
      (same : ∀ r : Retirement, s.holds r = true ↔ ∀ c ∈ spec.criteria, c.Says r) :
      Compiled spec (.ok s)
  | senseless {c : Criterion} {f : Failure} (first : Criterion.FirstSenseless spec.criteria c f) :
      Compiled spec (.error f)
  | outside (sense : ∀ c ∈ spec.criteria, c.MakesSense) (outside : ¬ spec.HasLimit) :
      Compiled spec (.error (.invalidArgument spec.limitFailure))

theorem compiled (spec : QuerySpec) : spec.Compiled spec.compile := by
  have criteria := Criterion.allCompiled spec.criteria
  unfold compile
  generalize spec.criteria.mapM Criterion.compile = result at criteria
  cases criteria with
  | refused first => exact .senseless first
  | @predicates ps sense same =>
      by_cases inside : spec.HasLimit
      · have made : Selection.make ps spec.offset spec.limit spec.sortField spec.sortOrder =
            .ok ⟨ps, spec.offset, spec.limit, spec.sortField, spec.sortOrder, inside⟩ := dif_pos inside
        change Compiled spec (Selection.make ps _ _ _ _)
        rw [made]
        exact .selection sense inside same
      · have refused : Selection.make ps spec.offset spec.limit spec.sortField spec.sortOrder =
            .error (.invalidArgument spec.limitFailure) := dif_neg inside
        change Compiled spec (Selection.make ps _ _ _ _)
        rw [refused]
        exact .outside sense inside

/-- A query compiles just if its limit is the size of a page and each of its criteria makes sense, and then it
asks for the retirements of which every criterion says what is true. Otherwise the failure is that of the
first criterion that makes no sense, and only if there is none that of the limit. -/
theorem compile_exact (spec : QuerySpec) :
    ((∃ s, spec.compile = .ok s) ↔ spec.HasLimit ∧ ∀ c ∈ spec.criteria, c.MakesSense) ∧
      (∀ s, spec.compile = .ok s → ∀ r : Retirement,
        s.holds r = true ↔ ∀ c ∈ spec.criteria, c.Says r) ∧
      ∀ f, spec.compile = .error f → (∃ detail, f = .invalidArgument detail) ∧
        ((∃ c, Criterion.FirstSenseless spec.criteria c f) ∨
          (∀ c ∈ spec.criteria, c.MakesSense) ∧ ¬ spec.HasLimit ∧
            f = .invalidArgument spec.limitFailure) := by
  have compiled := spec.compiled
  generalize spec.compile = result at compiled
  cases compiled with
  | @selection s sense inside same =>
      refine ⟨⟨fun _ => ⟨inside, sense⟩, fun _ => ⟨s, rfl⟩⟩, ?_, fun f failed => by cases failed⟩
      intro other made
      cases made
      exact same
  | @senseless c f first =>
      refine ⟨⟨fun made => ?_, fun both => ?_⟩, fun s made => (by cases made), ?_⟩
      · obtain ⟨s, made⟩ := made
        cases made
      · obtain ⟨before, after, split, -⟩ := first.first
        exact absurd (both.2 c (split ▸ List.mem_append_right before (.head after))) first.senseless
      · intro other failed
        cases failed
        exact ⟨first.own.exists_invalidArgument, .inl ⟨c, first⟩⟩
  | outside sense outside =>
      refine ⟨⟨fun made => ?_, fun both => absurd both.1 outside⟩,
        fun s made => (by cases made), ?_⟩
      · obtain ⟨s, made⟩ := made
        cases made
      · intro f failed
        cases failed
        exact ⟨⟨_, rfl⟩, .inr ⟨sense, outside, rfl⟩⟩

theorem compile_exact_mixed :
    let good : QuerySpec :=
      { criteria := [⟨.text .reason, .like, .one "POLICY%"⟩,
          ⟨.text .retiredBy, .isIn, .many ["alice", "bob"]⟩,
          ⟨.retiredAt, .between, .many ["-1", " 1970-01-01T01:00:05+01:00 "]⟩] }
    let bad : QuerySpec :=
      { criteria := [⟨.text .agreementId, .eq, .one "a-1"⟩, ⟨.retiredAt, .gt, .one "yesterday"⟩,
          ⟨.text .reason, .isIn, .many []⟩]
        limit := 0 }
    let r : Retirement :=
      .create "a-1" "POLICY_VIOLATION:c-1" "bob" ⟨5000000000, 0, by decide, by decide⟩
    (∃ s, good.compile = .ok s ∧ s.holds r = true) ∧ (∀ c ∈ good.criteria, c.Says r) ∧
      bad.compile = .error (Criterion.unreadable "yesterday") ∧
      ∃ c, Criterion.FirstSenseless bad.criteria c (Criterion.unreadable "yesterday") := by
  intro good bad r
  obtain ⟨s, compiled, holds⟩ : ∃ s, good.compile = .ok s ∧ s.holds r = true :=
    ⟨⟨[.textLike .reason "POLICY%", .textIn .retiredBy ["alice", "bob"], .atBetween (-1000) 5000], 0, 50,
      .retiredAt, .ascending, by decide⟩, by decide, by decide⟩
  have failed : bad.compile = .error (Criterion.unreadable "yesterday") := by decide
  refine ⟨⟨s, compiled, holds⟩, ((compile_exact good).2.1 s compiled r).mp holds, failed, ?_⟩
  rcases ((compile_exact bad).2.2 _ failed).2 with first | ⟨-, -, same⟩
  · exact first
  · exact absurd same (by decide)

end QuerySpec

end RetirementLedger

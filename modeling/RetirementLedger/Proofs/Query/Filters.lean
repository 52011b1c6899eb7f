import RetirementLedger.Proofs.Pattern
import RetirementLedger.Proofs.Query.Outcome

namespace RetirementLedger

namespace Like

variable {c : Char} {rest value : List Char}

theorem shares_escapeChar_append :
    Shares (escapeChar c ++ rest) value ↔ ∃ more, value = c :: more ∧ Shares rest more := by
  have special_iff : (c = '%' || c = '_' || c = escapeMark) = true ↔ c ∈ ['%', '_', '\\'] := by
    simp only [Bool.or_eq_true, decide_eq_true_eq, or_assoc, List.mem_cons, List.not_mem_nil,
      or_false]
    rfl
  by_cases special : c ∈ ['%', '_', '\\']
  · have marked : escapeChar c = ['\\', c] := if_pos (special_iff.mpr special)
    rw [marked]
    constructor
    · intro shares
      cases shares with
      | escaped c rest => exact ⟨_, rfl, rest⟩
      | plain c ordinary => exact absurd ordinary (by decide)
    · rintro ⟨more, rfl, shares⟩
      exact .escaped c shares
  · have alone : escapeChar c = [c] := if_neg (special_iff.not.mpr special)
    rw [alone]
    constructor
    · intro shares
      cases shares with
      | run | one | escaped => exact absurd special (by decide)
      | plain c ordinary rest => exact ⟨_, rfl, rest⟩
    · rintro ⟨more, rfl, shares⟩
      exact .plain c special shares

theorem shares_escaped_append (start : List Char) :
    Shares (start.flatMap escapeChar ++ rest) value ↔
      ∃ more, value = start ++ more ∧ Shares rest more := by
  induction start generalizing value with
  | nil => simp
  | cons c start ih =>
      rw [List.flatMap_cons, List.append_assoc, shares_escapeChar_append]
      constructor
      · rintro ⟨tail, rfl, shares⟩
        obtain ⟨more, rfl, last⟩ := ih.mp shares
        exact ⟨more, rfl, last⟩
      · rintro ⟨more, rfl, shares⟩
        exact ⟨start ++ more, rfl, ih.mpr ⟨more, rfl, shares⟩⟩

theorem shares_run (value : List Char) : Shares ['%'] value := by
  simpa using Shares.run value .nil

theorem isMatch_escape_iff {text value : String} : isMatch (escape text) value = true ↔ value = text := by
  rw [← shares_iff, escape, String.toList_ofList, ← List.append_nil (text.toList.flatMap escapeChar),
    shares_escaped_append]
  constructor
  · rintro ⟨more, same, shares⟩
    cases shares
    exact String.toList_injective (by rw [same, List.append_nil])
  · rintro rfl
    exact ⟨[], (List.append_nil _).symm, .nil⟩

end Like

namespace RetirementQuery

variable {q : RetirementQuery} {s : Selection} {r : Retirement}

theorem holds_prefixPattern {field : TextField} {start : String} :
    (Predicate.textLike field (prefixPattern start)).holds r = true ↔
      start.toList <+: (field.of r).toList := by
  rw [Predicate.holds, ← Like.shares_iff, prefixPattern, Like.escape, String.toList_append,
    String.toList_ofList, Like.shares_escaped_append]
  constructor
  · rintro ⟨more, same, -⟩
    exact ⟨more, same.symm⟩
  · rintro ⟨more, same⟩
    exact ⟨more, same.symm, Like.shares_run more⟩

structure Admits (q : RetirementQuery) (r : Retirement) : Prop where
  agreementId : ∀ id ∈ q.agreementId, r.agreementId = id
  agreementIdPrefix : ∀ start ∈ q.agreementIdPrefix, start.toList <+: r.agreementId.toList
  reason : ∀ reason ∈ q.reason, r.reason = reason
  reasonPrefix : ∀ start ∈ q.reasonPrefix, start.toList <+: r.reason.toList
  after : ∀ t ∈ q.retiredAfter, t.unixMillis < r.retiredAtMillis
  before : ∀ t ∈ q.retiredBefore, r.retiredAtMillis < t.unixMillis

theorem all_toList_map {α : Type} {f : α → Predicate} (P : α → Prop) (o : Option α)
    (same : ∀ a, (f a).holds r = true ↔ P a) :
    (o.map f).toList.all (·.holds r) = true ↔ ∀ a ∈ o, P a := by
  cases o with
  | none => simp
  | some a => simp [same]

theorem all_predicates : q.predicates.all (·.holds r) = true ↔ q.Admits r := by
  simp only [predicates, List.all_append, Bool.and_eq_true]
  rw [all_toList_map (fun id => r.agreementId = id) _ fun _ => beq_iff_eq,
    all_toList_map (fun start => start.toList <+: r.agreementId.toList) _ fun _ => holds_prefixPattern,
    all_toList_map (fun reason => r.reason = reason) _ fun _ => beq_iff_eq,
    all_toList_map (fun start => start.toList <+: r.reason.toList) _ fun _ => holds_prefixPattern,
    all_toList_map (fun t => t.unixMillis < r.retiredAtMillis) _ fun _ => by simp [Predicate.holds],
    all_toList_map (fun t => r.retiredAtMillis < t.unixMillis) _ fun _ => by simp [Predicate.holds]]
  constructor
  · rintro ⟨⟨⟨⟨⟨id, idPrefix⟩, reason⟩, reasonPrefix⟩, after⟩, before⟩
    exact ⟨id, idPrefix, reason, reasonPrefix, after, before⟩
  · rintro ⟨id, idPrefix, reason, reasonPrefix, after, before⟩
    exact ⟨⟨⟨⟨⟨id, idPrefix⟩, reason⟩, reasonPrefix⟩, after⟩, before⟩

theorem holds_of_compile (compiled : q.compile = .ok s) : s.holds r = true ↔ q.Admits r := by
  rw [Selection.holds, (selection_of_compile compiled).1, all_predicates]

theorem prefix_mem_predicates {field : TextField} {start : String}
    (given : field = .agreementId ∧ start ∈ q.agreementIdPrefix ∨ field = .reason ∧ start ∈ q.reasonPrefix) :
    .textLike field (prefixPattern start) ∈ q.predicates := by
  rcases given with ⟨rfl, given⟩ | ⟨rfl, given⟩
  · simp [predicates, Option.mem_def.mp given]
  · simp [predicates, Option.mem_def.mp given]

/-- A query with the limit of a page compiles. The predicate of a prefix holds of the retirements whose field
starts with it character for character, and the whole selection of those that every filter lets through.
An escaped text is a pattern for itself alone. -/
theorem prefixes_literal (q : RetirementQuery) (inside : q.HasLimit) :
    ∃ s, q.compile = .ok s ∧
      (∀ start ∈ q.agreementIdPrefix, ∃ p ∈ s.predicates, ∀ r : Retirement,
        p.holds r = true ↔ start.toList <+: r.agreementId.toList) ∧
      (∀ start ∈ q.reasonPrefix, ∃ p ∈ s.predicates, ∀ r : Retirement,
        p.holds r = true ↔ start.toList <+: r.reason.toList) ∧
      (∀ r : Retirement, s.holds r = true ↔ q.Admits r) ∧
      ∀ text value : String, Like.isMatch (Like.escape text) value = true ↔ value = text := by
  obtain ⟨s, compiled⟩ := exists_compile inside
  have same := (selection_of_compile compiled).1
  refine ⟨s, compiled, fun start given => ?_, fun start given => ?_, fun r => holds_of_compile compiled,
    fun text value => Like.isMatch_escape_iff⟩
  · exact ⟨_, same ▸ prefix_mem_predicates (.inl ⟨rfl, given⟩), fun r => holds_prefixPattern⟩
  · exact ⟨_, same ▸ prefix_mem_predicates (.inr ⟨rfl, given⟩), fun r => holds_prefixPattern⟩

theorem prefixes_literal_special :
    let q : RetirementQuery := { agreementIdPrefix := some "50%\\", reasonPrefix := some "_" }
    let kept : Retirement := .create "50%\\a" "_" "alice" ⟨0, 0, by decide, by decide⟩
    let missed : Retirement := .create "50%" "M" "alice" ⟨0, 0, by decide, by decide⟩
    q.HasLimit ∧ ∃ s, q.compile = .ok s ∧ s.holds kept = true ∧ s.holds missed = false ∧
      Like.isMatch "%" missed.agreementId = true ∧ Like.isMatch (Like.escape "%") "%" = true := by
  intro q kept missed
  have inside : q.HasLimit := by decide
  obtain ⟨s, compiled, -, reasons, admits, escaped⟩ := prefixes_literal q inside
  refine ⟨inside, s, compiled, (admits kept).mpr ⟨?_, ?_, ?_, ?_, ?_, ?_⟩, ?_, by decide,
    (escaped "%" "%").mpr rfl⟩
  · exact fun id given => by cases given
  · exact fun start given => by cases given; decide
  · exact fun reason given => by cases given
  · exact fun start given => by cases given; decide
  · exact fun t given => by cases given
  · exact fun t given => by cases given
  · obtain ⟨p, member, same⟩ := reasons "_" rfl
    refine Bool.eq_false_iff.mpr fun holds => ?_
    have started := (same missed).mp (List.all_eq_true.mp holds p member)
    exact absurd started (by decide)

end RetirementQuery

end RetirementLedger

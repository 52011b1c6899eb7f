import RetirementLedger.Database.Records
import RetirementLedger.Proofs.Database.Route
import RetirementLedger.Proofs.Query

namespace RetirementLedger

def Retirement.toEntry (r : Retirement) : String × Row := (r.agreementId, .ofRetirement r)

namespace SqlValue

@[simp] theorem text_beq (s t : String) : (SqlValue.text s == .text t) = (s == t) := by
  rw [Bool.eq_iff_iff]
  simp

@[simp] theorem integer_beq (m n : Int) : (SqlValue.integer m == .integer n) = (m == n) := by
  rw [Bool.eq_iff_iff]
  simp

@[simp] theorem less_integer (m n : Int) : less (.integer m) (.integer n) = decide (m < n) := by
  rw [Bool.eq_iff_iff]
  simp only [less, le, Bool.and_eq_true, decide_eq_true_eq, bne_iff_ne, ne_eq, integer.injEq]
  omega

end SqlValue

namespace Clause

theorem arity_ofPredicate (p : Predicate) : (ofPredicate p).1.arity = (ofPredicate p).2.length := by
  cases p <;> simp [ofPredicate, arity]

theorem of_ofTextField (field : TextField) (r : Retirement) :
    (Column.ofTextField field).of r.toEntry = .text (field.of r) := by
  cases field <;> rfl

theorem of_retiredAt (r : Retirement) : Column.retiredAt.of r.toEntry = .integer r.retiredAtMillis := rfl

theorem holds_ofPredicate {p : Predicate} {r : Retirement}
    (plain : ∀ field pattern, p = .textLike field pattern →
      (SqlValue.isLike (.text (field.of r)) (.text pattern) = true ↔
        Like.Denotes pattern (field.of r))) :
    (ofPredicate p).1.holds (ofPredicate p).2 r.toEntry = p.holds r := by
  cases p with
  | textLike field pattern =>
      simp only [ofPredicate, holds, column, of_ofTextField, Predicate.holds]
      rw [Bool.eq_iff_iff, plain field pattern rfl, Like.isMatch_iff]
  | textEq field value => simp [ofPredicate, holds, column, of_ofTextField, Predicate.holds]
  | textIn field values => simp [ofPredicate, holds, column, of_ofTextField, Predicate.holds]
  | atEq m => simp [ofPredicate, holds, column, of_retiredAt, Predicate.holds]
  | atGt m => simp [ofPredicate, holds, column, of_retiredAt, Predicate.holds]
  | atLt m => simp [ofPredicate, holds, column, of_retiredAt, Predicate.holds]
  | atBetween first last =>
      simp [ofPredicate, holds, column, of_retiredAt, Predicate.holds, SqlValue.le]

end Clause

namespace Select

theorem bind_of_aligned (parts : Condition) (left : List SqlValue)
    (aligned : ∀ part ∈ parts, part.1.arity = part.2.length) :
    bind (parts.map (·.1)) (parts.flatMap (·.2) ++ left) = (parts, left) := by
  induction parts with
  | nil => rfl
  | cons part rest ih =>
      obtain ⟨clause, values⟩ := part
      have arity : clause.arity = values.length := aligned _ (.head _)
      have rest := ih fun part member => aligned part (.tail _ member)
      simp only [List.map_cons, List.flatMap_cons, bind, arity, List.append_assoc, List.drop_left,
        List.take_left, rest]

def condition (s : Selection) : Condition := s.predicates.map Clause.ofPredicate

theorem bind_ofSelection (s : Selection) :
    bind (ofSelection s).clauses (ofSelection s).values =
      (condition s, [.integer s.limit.toNat, .integer s.offset.toNat]) := by
  refine bind_of_aligned (condition s) _ fun part member => ?_
  obtain ⟨p, -, rfl⟩ := List.mem_map.mp member
  exact Clause.arity_ofPredicate p

def IsShort (condition : Condition) : Prop := ∀ c ∈ condition, c.1.isTooComplex c.2 = false

theorem test_eq {condition : Condition} (short : IsShort condition) (entry : String × Row) :
    test entry condition = .ok (condition.holds entry) := by
  induction condition with
  | nil => rfl
  | cons c rest ih =>
      obtain ⟨clause, values⟩ := c
      have simple : clause.isTooComplex values = false := short _ (.head _)
      have others := ih fun c member => short c (.tail _ member)
      simp only [test, simple, Bool.false_eq_true, if_false, others, Condition.holds, List.all_cons]
      cases clause.holds values entry <;> simp

theorem filter_eq {condition : Condition} (short : IsShort condition)
    (entries : List (String × Row)) :
    filter condition entries = .ok (entries.filter condition.holds) := by
  induction entries with
  | nil => rfl
  | cons entry rest ih =>
      simp only [filter, test_eq short, ih, List.filter_cons]
      rfl

theorem IsShort.remaining {condition : Condition} (short : IsShort condition) (route : Route) :
    IsShort (route.remaining condition) := by
  intro c member
  obtain ⟨place, here, -⟩ := Route.mem_remaining.mp member
  exact short c (List.mem_of_getElem? here)

theorem run_ofSelection {s : Selection} {rows : Catalog Row} (migrated : Bool)
    (short : IsShort (condition s)) (plain : ∀ entry ∈ rows.entries, (condition s).IsPlain entry) :
    (ofSelection s).run migrated rows =
      .ok ((((rows.entries.filter (condition s).holds).mergeSort
        (precedes (ofSelection s).orderBy)).drop s.offset.toNat).take s.limit.toNat) := by
  have sound := Route.terms_choose (condition s) ((ofSelection s).orderBy.map (·.1)) migrated
  revert sound
  unfold run
  rw [bind_ofSelection]
  dsimp only
  -- From here on any route will do whose terms all come from the condition.
  generalize Route.choose (condition s) ((ofSelection s).orderBy.map (·.1)) migrated = route
  intro sound
  have found : (rows.entries.filter (route.reaches (condition s))).filter
      (route.remaining (condition s)).holds = rows.entries.filter (condition s).holds := by
    rw [List.filter_filter]
    refine List.filter_congr fun entry member => ?_
    rw [Bool.and_comm]
    exact Route.reaches_and_remaining sound (plain entry member)
  rw [filter_eq (short.remaining route), found]
  rfl

theorem precedes_downwards (columns : List Column) (a b : String × Row) :
    precedes (columns.map (·, .descending)) a b = precedes (columns.map (·, .ascending)) b a := by
  induction columns with
  | nil => rfl
  | cons column rest ih =>
      simp only [List.map_cons, precedes, ih, eq_comm]

theorem precedes_ascending {s : Selection} (order : s.sortOrder = .ascending) (a b : Retirement) :
    precedes (ofSelection s).orderBy a.toEntry b.toEntry = Selection.precedes s.sortField a b := by
  have ids : precedes [(.agreementId, .ascending)] a.toEntry b.toEntry =
      decide (a.agreementId ≤ b.agreementId) := by
    by_cases same : a.agreementId = b.agreementId
    · simp [precedes, Column.of, Retirement.toEntry, same]
    · simp [precedes, Column.of, Retirement.toEntry, same, SqlValue.le]
  cases field : s.sortField with
  | agreementId =>
      simp only [ofSelection, field, order]
      exact ids
  | retiredAt =>
      simp only [ofSelection, field, order]
      rw [precedes, ids, Clause.of_retiredAt, Clause.of_retiredAt]
      by_cases same : a.retiredAtMillis = b.retiredAtMillis
      · simp [Selection.precedes, same]
      · simp [Selection.precedes, same, SqlValue.le, Int.le_iff_lt_or_eq]

theorem precedes_descending {s : Selection} (order : s.sortOrder = .descending) (a b : Retirement) :
    precedes (ofSelection s).orderBy a.toEntry b.toEntry = Selection.precedes s.sortField b a := by
  rw [← precedes_ascending (s := { s with sortOrder := .ascending }) rfl b a]
  cases field : s.sortField with
  | agreementId =>
      simp only [ofSelection, field, order]
      exact precedes_downwards [.agreementId] a.toEntry b.toEntry
  | retiredAt =>
      simp only [ofSelection, field, order]
      exact precedes_downwards [.retiredAt, .agreementId] a.toEntry b.toEntry

theorem mergeSort_ofSelection {s : Selection} {records : List Retirement}
    (distinct : Selection.IsDistinct records) :
    (records.map Retirement.toEntry).mergeSort (precedes (ofSelection s).orderBy) =
      (s.sort records).map Retirement.toEntry := by
  unfold Selection.sort
  cases order : s.sortOrder with
  | ascending => exact (List.map_mergeSort fun a _ b _ => (precedes_ascending order a b).symm).symm
  | descending =>
      dsimp only
      rw [Selection.reverse_mergeSort distinct]
      exact (List.map_mergeSort fun a _ b _ => (precedes_descending order a b).symm).symm

/-- The patterns of the selection suit LIKE: none is too long, and each is found in the texts of these
retirements just where it denotes them. -/
structure Suits (s : Selection) (records : List Retirement) : Prop where
  short : ∀ field pattern, .textLike field pattern ∈ s.predicates →
    pattern.utf8ByteSize ≤ Clause.maxPatternSize
  unbroken : ∀ field pattern, .textLike field pattern ∈ s.predicates →
    SqlValue.untilNul pattern = pattern
  documented : ∀ field pattern, .textLike field pattern ∈ s.predicates → ∀ r ∈ records,
    (SqlValue.isLike (.text (field.of r)) (.text pattern) = true ↔ Like.Denotes pattern (field.of r))

variable {s : Selection} {records : List Retirement}

theorem of_mem_condition_like {column : Column} {values : List SqlValue}
    (member : (.like column, values) ∈ condition s) :
    ∃ field pattern, column = .ofTextField field ∧ values = [.text pattern] ∧
      .textLike field pattern ∈ s.predicates := by
  obtain ⟨p, known, part⟩ := List.mem_map.mp member
  cases p with
  | textLike field pattern =>
      cases part
      exact ⟨field, pattern, rfl, rfl, known⟩
  | _ => cases part

theorem Suits.isShort (suits : Suits s records) : IsShort (condition s) := by
  rintro ⟨clause, values⟩ member
  cases clause with
  | like column =>
      obtain ⟨field, pattern, -, rfl, known⟩ := of_mem_condition_like member
      simpa [Clause.isTooComplex] using suits.short field pattern known
  | _ => rfl

section
variable {r : Retirement}

theorem isPlain_condition
    (unbroken : ∀ field pattern, .textLike field pattern ∈ s.predicates →
      SqlValue.untilNul pattern = pattern)
    (documented : ∀ field pattern, .textLike field pattern ∈ s.predicates →
      (SqlValue.isLike (.text (field.of r)) (.text pattern) = true ↔
        Like.Denotes pattern (field.of r))) : (condition s).IsPlain r.toEntry := by
  intro column pattern member
  obtain ⟨field, pattern, rfl, same, asked⟩ := of_mem_condition_like member
  cases same
  exact ⟨unbroken field pattern asked, field.of r, Clause.of_ofTextField field r,
    documented field pattern asked⟩

theorem holds_condition
    (documented : ∀ field pattern, .textLike field pattern ∈ s.predicates →
      (SqlValue.isLike (.text (field.of r)) (.text pattern) = true ↔
        Like.Denotes pattern (field.of r))) : (condition s).holds r.toEntry = s.holds r := by
  have each (p : Predicate) (asked : p ∈ s.predicates) :
      (Clause.ofPredicate p).1.holds (Clause.ofPredicate p).2 r.toEntry = p.holds r := by
    refine Clause.holds_ofPredicate fun field pattern same => ?_
    subst same
    exact documented field pattern asked
  rw [Condition.holds, condition, List.all_map, Selection.holds, Bool.eq_iff_iff, List.all_eq_true,
    List.all_eq_true]
  exact forall₂_congr fun p asked => by rw [Function.comp_apply, each p asked]

theorem Suits.isPlain (suits : Suits s records) (known : r ∈ records) :
    (condition s).IsPlain r.toEntry :=
  isPlain_condition suits.unbroken fun field pattern asked => suits.documented field pattern asked r known

theorem Suits.holds (suits : Suits s records) (known : r ∈ records) :
    (condition s).holds r.toEntry = s.holds r :=
  holds_condition fun field pattern asked => suits.documented field pattern asked r known

end

theorem run_ofSelection_map {rows : Catalog Row} (stored : rows.entries = records.map Retirement.toEntry)
    (suits : Suits s records) (migrated : Bool) :
    (ofSelection s).run migrated rows = .ok ((s.apply records).map Retirement.toEntry) := by
  have distinct : Selection.IsDistinct records := by
    have ascending := rows.ascending
    rw [stored, List.pairwise_map] at ascending
    exact Selection.isDistinct_of_ascending ascending
  have kept : rows.entries.filter (condition s).holds =
      (records.filter s.holds).map Retirement.toEntry := by
    rw [stored, List.filter_map]
    exact congrArg _ (List.filter_congr fun r known => suits.holds known)
  have plain : ∀ entry ∈ rows.entries, (condition s).IsPlain entry := by
    intro entry member
    rw [stored] at member
    obtain ⟨r, known, rfl⟩ := List.mem_map.mp member
    exact suits.isPlain known
  rw [run_ofSelection migrated suits.isShort plain, kept,
    mergeSort_ofSelection (distinct.filter _), ← List.map_drop, ← List.map_take]
  rfl

end Select

end RetirementLedger

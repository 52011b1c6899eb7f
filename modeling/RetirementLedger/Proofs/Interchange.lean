import Mathlib.Data.List.TakeWhile
import RetirementLedger.Proofs.Correspondence
import RetirementLedger.Store.Basic

namespace RetirementLedger

inductive StoreCall where
  | insert (agreementId reason retiredBy : String) (instant : Instant)
  | find (agreementId : String)
  | select (selection : Selection)

inductive StoreAnswer where
  | inserted (reply : Except Failure (RetirementView × Bool))
  | found (reply : Except Failure (Option RetirementView))
  | selected (reply : Except Failure (List RetirementView))
  deriving DecidableEq

namespace Store

def call (s : Store) : StoreCall → StoreAnswer × Store
  | .insert agreementId reason retiredBy instant =>
    let (reply, s) := s.insert (.create agreementId reason retiredBy instant)
    (.inserted (reply.map Receipt.view), s)
  | .find agreementId => (.found ((s.find? agreementId).map (·.map Retirement.view)), s)
  | .select selection => (.selected ((s.select selection).map (·.map Retirement.view)), s)

def answers (s : Store) : List StoreCall → List StoreAnswer
  | [] => []
  | call :: rest => (s.call call).1 :: (s.call call).2.answers rest

def after (s : Store) (calls : List StoreCall) : Store := calls.foldl (fun s call => (s.call call).2) s

end Store

namespace StoreCall

def texts : StoreCall → List String
  | .insert agreementId reason retiredBy _ => [agreementId, reason, retiredBy]
  | _ => []

def instants : StoreCall → List Instant
  | .insert _ _ _ instant => [instant]
  | _ => []

def patterns : StoreCall → List String
  | .select selection => selection.predicates.filterMap fun p =>
    match p with
    | .textLike _ pattern => some pattern
    | _ => none
  | _ => []

theorem mem_patterns {selection : Selection} {field : TextField} {pattern : String}
    (asked : .textLike field pattern ∈ selection.predicates) :
    pattern ∈ (StoreCall.select selection).patterns :=
  List.mem_filterMap.mpr ⟨_, asked, rfl⟩

end StoreCall

/-- Calls within what is documented of a database: there is no NUL in what they bring and compare, instants
have a date in UTC, statements and patterns are not too large, and LIKE finds what a pattern denotes. -/
structure PlainCalls (calls : List StoreCall) : Prop where
  unbroken : ∀ s ∈ calls.flatMap StoreCall.texts ++ calls.flatMap StoreCall.patterns,
    '\x00' ∉ s.toList
  dated : ∀ instant ∈ calls.flatMap StoreCall.instants, instant.HasUtcDate
  small : ∀ selection, .select selection ∈ calls → (Select.ofSelection selection).checkSize = .ok ()
  short : ∀ pattern ∈ calls.flatMap StoreCall.patterns, pattern.utf8ByteSize ≤ Clause.maxPatternSize
  documented : ∀ text ∈ calls.flatMap StoreCall.texts, ∀ pattern ∈ calls.flatMap StoreCall.patterns,
    (SqlValue.isLike (.text text) (.text pattern) = true ↔ Like.Denotes pattern text)

namespace SqlValue

theorem untilNul_eq {s : String} (unbroken : '\x00' ∉ s.toList) : untilNul s = s := by
  have kept : s.toList.takeWhile (· != '\x00') = s.toList := by
    refine List.takeWhile_eq_self_iff.mpr fun c member => ?_
    rw [bne_iff_ne]
    rintro rfl
    exact unbroken member
  rw [untilNul, kept, String.ofList_toList]

theorem isNoncharacter_iff {c : Char} : isNoncharacter c = true ↔ c = '\uFFFE' ∨ c = '\uFFFF' := by
  simp only [isNoncharacter, Bool.or_eq_true, beq_iff_eq, ← Char.toNat_inj]
  rfl

theorem seenByLike_eq {s : String} (unbroken : '\x00' ∉ s.toList)
    (first : '\uFFFE' ∉ s.toList) (second : '\uFFFF' ∉ s.toList) : seenByLike s = s := by
  rw [seenByLike, untilNul_eq unbroken, ← String.toList_inj, String.toList_map]
  refine (List.map_congr_left fun c member => ?_).trans (List.map_id _)
  refine if_neg fun odd => ?_
  rcases isNoncharacter_iff.mp odd with rfl | rfl
  · exact first member
  · exact second member

theorem isLike_iff_denotes {text pattern : String}
    (plain : ∀ s ∈ [text, pattern],
      '\x00' ∉ s.toList ∧ '\uFFFE' ∉ s.toList ∧ '\uFFFF' ∉ s.toList) :
    isLike (.text text) (.text pattern) = true ↔ Like.Denotes pattern text := by
  have seen (s : String) (here : s ∈ [text, pattern]) : seenByLike s = s := by
    obtain ⟨unbroken, first, second⟩ := plain s here
    exact seenByLike_eq unbroken first second
  rw [isLike, seen text (by simp), seen pattern (by simp)]
  exact Like.isMatch_iff

end SqlValue

namespace PlainCalls

variable {calls : List StoreCall} {ledger : Ledger} {db : Database}

theorem keeps (plain : PlainCalls calls) {agreementId reason retiredBy : String} {instant : Instant}
    (asked : .insert agreementId reason retiredBy instant ∈ calls) :
    (Retirement.create agreementId reason retiredBy instant).Keeps (calls.flatMap StoreCall.texts) := by
  constructor
  · have dated : instant.HasUtcDate :=
      plain.dated instant (List.mem_flatMap.mpr ⟨_, asked, List.mem_singleton_self instant⟩)
    exact dated.exists_ofUnixMillis?
  · intro field
    refine List.mem_flatMap.mpr ⟨_, asked, ?_⟩
    cases field <;> simp [StoreCall.texts, Retirement.create, TextField.of]

theorem suits (plain : PlainCalls calls) {selection : Selection} (asked : .select selection ∈ calls)
    (corresponds : Corresponds (calls.flatMap StoreCall.texts) ledger db) :
    Select.Suits selection ledger.records.values := by
  have compared (field : TextField) (pattern : String)
      (member : .textLike field pattern ∈ selection.predicates) :
      pattern ∈ calls.flatMap StoreCall.patterns :=
    List.mem_flatMap.mpr ⟨_, asked, StoreCall.mem_patterns member⟩
  constructor
  · exact fun field pattern member => plain.short _ (compared field pattern member)
  · intro field pattern member
    exact SqlValue.untilNul_eq
      (plain.unbroken _ (List.mem_append_right _ (compared field pattern member)))
  · intro field pattern member r known
    exact plain.documented _ ((corresponds.mem_values known).listed field) _ (compared field pattern member)

end PlainCalls

inductive Alike (texts : List String) : Store → Store → Prop
  | intro {ledger : Ledger} {db : Database} (corresponds : Corresponds texts ledger db) :
    Alike texts (.memory ledger) (.database db)

namespace Alike

variable {calls : List StoreCall} {m d : Store}

theorem call (alike : Alike (calls.flatMap StoreCall.texts) m d) (plain : PlainCalls calls)
    {c : StoreCall} (asked : c ∈ calls) :
    (m.call c).1 = (d.call c).1 ∧
      Alike (calls.flatMap StoreCall.texts) (m.call c).2 (d.call c).2 := by
  obtain ⟨corresponds⟩ := alike
  cases c with
  | insert agreementId reason retiredBy instant =>
      have unbroken (s : String) (told : s ∈ [agreementId, reason, retiredBy]) : '\x00' ∉ s.toList :=
        plain.unbroken s (List.mem_append_left _ (List.mem_flatMap.mpr ⟨_, asked, told⟩))
      obtain ⟨same, corresponds⟩ := corresponds.insert (plain.keeps asked)
        (unbroken agreementId (by simp)) (unbroken reason (by simp))
      exact ⟨congrArg StoreAnswer.inserted same.symm, .intro corresponds⟩
  | find agreementId =>
      exact ⟨congrArg StoreAnswer.found (corresponds.find agreementId).symm, .intro corresponds⟩
  | select selection =>
      have same := corresponds.select (plain.small _ asked) (plain.suits asked corresponds)
      exact ⟨congrArg StoreAnswer.selected same.symm, .intro corresponds⟩

theorem run (alike : Alike (calls.flatMap StoreCall.texts) m d) (plain : PlainCalls calls)
    {rest : List StoreCall} (asked : rest ⊆ calls) :
    m.answers rest = d.answers rest ∧
      Alike (calls.flatMap StoreCall.texts) (m.after rest) (d.after rest) := by
  induction rest generalizing m d with
  | nil => exact ⟨rfl, alike⟩
  | cons c rest ih =>
      obtain ⟨first, later⟩ := List.cons_subset.mp asked
      obtain ⟨same, alike⟩ := alike.call plain first
      obtain ⟨others, alike⟩ := ih alike later
      exact ⟨by rw [Store.answers, Store.answers, same, others], alike⟩

end Alike

theorem stores_interchangeable {calls : List StoreCall} (plain : PlainCalls calls) :
    (Store.memory .empty).answers calls = (Store.database .fresh).answers calls ∧
      ∀ before selection after, calls = before ++ .select selection :: after →
        ∃ ledger db rows,
          (Store.memory .empty).after before = .memory ledger ∧
            (Store.database .fresh).after before = .database db ∧
            db.table = some (.standard rows) ∧
            ∀ migrated, (Select.ofSelection selection).run migrated rows =
              .ok ((selection.apply ledger.records.values).map Retirement.toEntry) := by
  have empty : Alike (calls.flatMap StoreCall.texts) (.memory .empty) (.database .fresh) :=
    .intro (.fresh _)
  refine ⟨(empty.run plain (List.Subset.refl calls)).1, ?_⟩
  intro before selection after split
  have asked : before ⊆ calls := by simp [split]
  obtain ⟨-, alike⟩ := empty.run plain asked
  -- Only their likeness matters of the two stores, which says what each of them keeps.
  revert alike
  generalize (Store.memory .empty).after before = m
  generalize (Store.database .fresh).after before = d
  intro alike
  obtain @⟨ledger, db, corresponds⟩ := alike
  refine ⟨ledger, db, _, rfl, rfl, corresponds.table, fun migrated => ?_⟩
  exact Select.run_ofSelection_map corresponds.entries (plain.suits (by simp [split]) corresponds) migrated

theorem stores_interchangeable_downwards :
    let early : Instant := ⟨-1500000, 3600, by decide, by decide⟩
    let selection : Selection :=
      ⟨[.textLike .agreementId "a-%", .textIn .retiredBy ["o", "p"]], 0, 10, .retiredAt, .descending,
        by decide⟩
    let before : List StoreCall :=
      [.insert "a-1" "r" "o" early, .insert "a-1" "s" "o" .epoch, .insert " a-2" "r" "o" .epoch,
        .insert "a-2" "s" "p" .epoch, .find "a-1"]
    let calls := before ++ [.select selection]
    PlainCalls calls ∧
      ((Store.database .fresh).answers calls).take 5 =
        [.inserted (.ok (⟨"a-1", "r", -2000000, "o"⟩, true)),
          .inserted (.ok (⟨"a-1", "r", -2000000, "o"⟩, false)),
          .inserted (.error (.invalidArgument
            "agreement_id MUST NOT have leading or trailing whitespace")),
          .inserted (.ok (⟨"a-2", "s", 0, "p"⟩, true)),
          .found (.ok (some ⟨"a-1", "r", -2000000, "o"⟩))] ∧
      ∃ db rows,
        (Store.database .fresh).after before = .database db ∧ db.table = some (.standard rows) ∧
          (Select.ofSelection selection).run db.indexed rows =
            .ok [("a-2", ⟨"s", 0, "p"⟩), ("a-1", ⟨"r", -2, "o"⟩)] := by
  intro early selection before calls
  have plain : PlainCalls calls := by
    constructor
    · decide
    · decide
    · intro asked member
      have same : asked = selection := by simpa [calls, before] using member
      rw [same]
      decide
    · decide
    · have plain : ∀ s ∈ calls.flatMap StoreCall.texts ++ calls.flatMap StoreCall.patterns,
          '\x00' ∉ s.toList ∧ '\uFFFE' ∉ s.toList ∧ '\uFFFF' ∉ s.toList := by
        decide
      intro text told pattern compared
      refine SqlValue.isLike_iff_denotes fun s here => ?_
      rcases List.mem_pair.mp here with rfl | rfl
      · exact plain s (List.mem_append_left _ told)
      · exact plain s (List.mem_append_right _ compared)
  obtain ⟨same, evaluates⟩ := stores_interchangeable plain
  obtain ⟨ledger, db, rows, kept, stored, table, evaluated⟩ := evaluates before selection [] rfl
  refine ⟨plain, ?_, db, rows, stored, table, ?_⟩
  · rw [← same]
    decide
  · have values : ledger.records.values =
        [.create "a-1" "r" "o" early, .create "a-2" "s" "p" .epoch] := by
      cases kept
      decide
    have ascending : (ledger.records.values.filter selection.holds).Pairwise
        (Selection.precedes .retiredAt · ·) := by
      rw [values]
      decide
    rw [evaluated, Selection.apply, Selection.sort, List.mergeSort_of_pairwise ascending, values]
    decide

end RetirementLedger

import RetirementLedger.Proofs.Interchange
import RetirementLedger.Proofs.Readings

namespace RetirementLedger

namespace Selection

def atPage (s : Selection) (offset : UInt32) (order : SortOrder) : Selection :=
  { s with offset, sortOrder := order }

end Selection

namespace Select

def orderColumns : SortField → List Column
  | .retiredAt => [.retiredAt, .agreementId]
  | .agreementId => [.agreementId]

theorem map_orderBy (s : Selection) : (ofSelection s).orderBy.map (·.1) = orderColumns s.sortField := by
  cases field : s.sortField <;> simp only [ofSelection, field, orderColumns, List.map_cons, List.map_nil]

section
variable {condition : Condition}

theorem eq_holds_of_test {entry : String × Row} {kept : Bool} (tested : test entry condition = .ok kept) :
    kept = condition.holds entry := by
  induction condition with
  | nil =>
      cases tested
      rfl
  | cons c rest ih =>
      obtain ⟨clause, values⟩ := c
      rw [test] at tested
      rw [Condition.holds, List.all_cons]
      split at tested
      · cases tested
      · split at tested
        · next met => rw [met, Bool.true_and, ih tested, Condition.holds]
        · next missed =>
            cases tested
            rw [Bool.eq_false_iff.mpr missed, Bool.false_and]

theorem eq_filter_of_filter {entries found : List (String × Row)}
    (filtered : filter condition entries = .ok found) : found = entries.filter condition.holds := by
  induction entries generalizing found with
  | nil =>
      cases filtered
      rfl
  | cons entry rest ih =>
      rw [filter] at filtered
      obtain ⟨kept, tested, filtered⟩ := bind_eq_ok.mp filtered
      obtain ⟨others, remaining, made⟩ := bind_eq_ok.mp filtered
      cases made
      rw [eq_holds_of_test tested, ih remaining, List.filter_cons]

end

/-- Whether clauses can be read depends on nothing else, and only the text of the statement shows in a failure. -/
theorem checkClauses_cases (depth placeholders : Nat) (clauses : List Clause) :
    (∀ statement : Select, statement.checkClauses depth placeholders clauses = .ok ()) ∨
      (∀ statement : Select,
        statement.checkClauses depth placeholders clauses = .error statement.tooManyPlaceholders) ∨
      ∀ statement : Select, statement.checkClauses depth placeholders clauses = .error tooDeep := by
  induction clauses generalizing depth placeholders with
  | nil =>
      by_cases many : maxPlaceholders < placeholders + 2
      · exact .inr (.inl fun statement => if_pos many)
      · exact .inl fun statement => if_neg many
  | cons clause rest ih =>
      simp only [checkClauses]
      by_cases many : maxPlaceholders < placeholders + clause.arity
      · exact .inr (.inl fun statement => if_pos many)
      · simp only [if_neg many]
        generalize (if depth = 0 then clause.depth else 1 + max depth clause.depth) = deeper
        by_cases deep : maxDepth < deeper
        · exact .inr (.inr fun statement => if_pos deep)
        · simp only [if_neg deep]
          exact ih deeper _

theorem checkSize_cases (s : Selection) :
    (∀ offset order, (ofSelection (s.atPage offset order)).checkSize = .ok ()) ∨
      (ofSelection s).checkSize ≠ .ok () ∧ ∀ order, ∃ detail, ∀ offset,
        (ofSelection (s.atPage offset order)).checkSize = .error (.persistence detail) := by
  rcases checkClauses_cases 0 0 (ofSelection s).clauses with small | many | deep
  · exact .inl fun offset order => small _
  · refine .inr ⟨fun small => ?_, fun order => ?_⟩
    · cases small.symm.trans (many _)
    · obtain ⟨detail, told⟩ : ∃ detail,
          (ofSelection (s.atPage 0 order)).tooManyPlaceholders = .persistence detail := ⟨_, rfl⟩
      exact ⟨detail, fun offset => told ▸ many _⟩
  · refine .inr ⟨fun small => ?_, fun order => ⟨_, fun offset => deep _⟩⟩
    cases small.symm.trans (deep _)

def finds (s : Selection) (migrated : Bool) (entry : String × Row) : Bool :=
  let route := Route.choose (condition s) (orderColumns s.sortField) migrated
  route.reaches (condition s) entry && (route.remaining (condition s)).holds entry

theorem run_atPage {records : List Retirement} {rows : Catalog Row} (s : Selection) (migrated : Bool)
    (stored : rows.entries = records.map Retirement.toEntry) (distinct : Selection.IsDistinct records) :
    (∀ offset order, (ofSelection (s.atPage offset order)).run migrated rows =
        .ok (((s.atPage offset order).page ((s.atPage offset order).sort
          (records.filter fun r => finds s migrated r.toEntry))).map Retirement.toEntry)) ∨
      ¬ IsShort (condition s) ∧ ∀ offset order,
        (ofSelection (s.atPage offset order)).run migrated rows = .error patternTooComplex := by
  let route := Route.choose (condition s) (orderColumns s.sortField) migrated
  have evaluated (offset : UInt32) (order : SortOrder) :
      (ofSelection (s.atPage offset order)).run migrated rows =
        (filter (route.remaining (condition s)) (rows.entries.filter (route.reaches (condition s))) >>=
          fun found => .ok (((found.mergeSort (precedes (ofSelection (s.atPage offset order)).orderBy)).drop
            offset.toNat).take s.limit.toNat)) := by
    unfold run
    rw [bind_ofSelection, map_orderBy]
    rfl
  rcases filter_cases (route.remaining (condition s))
      (rows.entries.filter (route.reaches (condition s))) with ⟨found, filtered, -⟩ | failed
  · have kept : found = (records.filter fun r => finds s migrated r.toEntry).map Retirement.toEntry := by
      rw [eq_filter_of_filter filtered, List.filter_filter, stored, List.filter_map]
      refine congrArg _ (List.filter_congr fun r member => ?_)
      exact Bool.and_comm ..
    refine .inl fun offset order => ?_
    rw [evaluated, filtered, kept]
    change Except.ok _ = _
    rw [mergeSort_ofSelection (distinct.filter _), ← List.map_drop, ← List.map_take]
    rfl
  · refine .inr ⟨fun short => ?_, fun offset order => ?_⟩
    · cases (filter_eq (short.remaining route) _).symm.trans failed
    · rw [evaluated, failed]
      rfl

end Select

namespace Store

def records (s : Store) : List Retirement := s.contents.filterMap (·.2.toOption)

def finds (s : Store) (selection : Selection) (r : Retirement) : Bool :=
  match s with
  | .memory _ => selection.holds r
  | .database db => Select.finds selection db.indexed r.toEntry

/-- A database evaluates statements that are not too large, with patterns that are not too long. -/
def Answers (s : Store) (selection : Selection) : Prop :=
  match s with
  | .memory _ => True
  | .database _ => (Select.ofSelection selection).checkSize = .ok () ∧
      Select.IsShort (Select.condition selection)

/-- The texts that a database compares for LIKE have none of the characters that it reads in its own way. -/
def ReadsPlainly (s : Store) (selection : Selection) (r : Retirement) : Prop :=
  s.isDatabase = true → ∀ field pattern, .textLike field pattern ∈ selection.predicates →
    ∀ text ∈ [field.of r, pattern],
      '\x00' ∉ text.toList ∧ '\uFFFE' ∉ text.toList ∧ '\uFFFF' ∉ text.toList

theorem finds_eq_holds {s : Store} {selection : Selection} {r : Retirement}
    (plain : s.ReadsPlainly selection r) : s.finds selection r = selection.holds r := by
  cases s with
  | memory ledger => rfl
  | database db =>
      have compared := plain rfl
      have unbroken (field : TextField) (pattern : String)
          (asked : .textLike field pattern ∈ selection.predicates) :
          SqlValue.untilNul pattern = pattern :=
        SqlValue.untilNul_eq (compared field pattern asked pattern (by simp)).1
      have documented (field : TextField) (pattern : String)
          (asked : .textLike field pattern ∈ selection.predicates) :=
        SqlValue.isLike_iff_denotes (compared field pattern asked)
      have routed := Route.terms_choose (Select.condition selection)
        (Select.orderColumns selection.sortField) db.indexed
      rw [← Select.holds_condition documented]
      exact Route.reaches_and_remaining routed (Select.isPlain_condition unbroken documented)

theorem records_memory (ledger : Ledger) : (memory ledger).records = ledger.records.values := by
  rw [records, contents, List.filterMap_map, Catalog.values, ← List.filterMap_eq_map]
  rfl

end Store

namespace Database

variable {db : Database} {rows : Catalog Row}

theorem filterMap_of_mapM {entries : List (String × Row)} {records : List Retirement}
    (read : entries.mapM (fun e => e.2.toRetirement e.1) = .ok records) :
    entries.filterMap (fun e => (e.2.toRetirement e.1).toOption) = records := by
  induction entries generalizing records with
  | nil =>
      cases read
      rfl
  | cons e rest ih =>
      rw [List.mapM_cons] at read
      obtain ⟨r, first, read⟩ := bind_eq_ok.mp read
      obtain ⟨others, later, made⟩ := bind_eq_ok.mp read
      cases made
      rw [List.filterMap_cons, first, ih later]
      rfl

theorem mapM_toEntry {records : List Retirement}
    (restored : ∀ r ∈ records, (Row.ofRetirement r).toRetirement r.agreementId = .ok r) :
    (records.map Retirement.toEntry).mapM (fun e => e.2.toRetirement e.1) = .ok records := by
  induction records with
  | nil => rfl
  | cons r rest ih =>
      obtain ⟨first, later⟩ := List.forall_mem_cons.mp restored
      rw [List.map_cons, List.mapM_cons, ih later]
      change ((Row.ofRetirement r).toRetirement r.agreementId >>= _) = _
      rw [first]
      rfl

theorem entries_records (sound : (Store.database db).Sound) (table : db.table = some (.standard rows)) :
    rows.entries = (Store.database db).records.map Retirement.toEntry ∧
      ∀ r ∈ (Store.database db).records, (Row.ofRetirement r).toRetirement r.agreementId = .ok r := by
  have readable := isReadable_of_sound sound table
  obtain ⟨records, read⟩ := @exists_mapM rows.entries fun e member =>
    readable e.1 e.2 (Catalog.find?_eq_some_iff.mpr member)
  have same : (Store.database db).records = records := by
    rw [Store.records, Store.contents, table, List.filterMap_map]
    exact filterMap_of_mapM read
  obtain ⟨entries, restored⟩ := entries_of_mapM read
  rw [same]
  exact ⟨entries.symm, restored⟩

end Database

namespace Store

variable {s : Store} {selection : Selection}

theorem ascending_records (sound : s.Sound) :
    s.records.Pairwise fun a b => a.agreementId < b.agreementId := by
  cases s with
  | memory ledger =>
      rw [records_memory, Catalog.values]
      refine List.pairwise_map.mpr (ledger.records.ascending.imp_of_mem fun {a b} first second less => ?_)
      rw [(sound.filed a.1 a.2 (Catalog.find?_eq_some_iff.mpr first)).1,
        (sound.filed b.1 b.2 (Catalog.find?_eq_some_iff.mpr second)).1]
      exact less
  | database db =>
      obtain ⟨-, rows, table⟩ := sound.current
      have ascending := rows.ascending
      rw [(Database.entries_records sound table).1, List.pairwise_map] at ascending
      exact ascending

theorem mem_records (sound : s.Sound) {r : Retirement} : r ∈ s.records ↔ s.Holds r := by
  cases s with
  | memory ledger =>
      rw [records_memory, Holds, record?_memory sound]
      exact (and_iff_left rfl).symm
  | database db =>
      obtain ⟨-, rows, table⟩ := sound.current
      obtain ⟨entries, restored⟩ := Database.entries_records sound table
      constructor
      · intro member
        exact Database.record?_of_entry table (entries ▸ List.mem_map_of_mem member) (restored r member)
      · intro held
        rw [Holds, Database.record?_eq table] at held
        obtain ⟨row, known, read⟩ := Option.bind_eq_some_iff.mp held
        have member := Catalog.find?_eq_some_iff.mp known
        rw [entries] at member
        obtain ⟨other, filed, same⟩ := List.mem_map.mp member
        obtain ⟨id, content⟩ := Prod.mk.inj same
        rw [← content, ← id, restored other filed] at read
        cases read
        exact filed

theorem isDistinct_records (sound : s.Sound) : Selection.IsDistinct s.records :=
  Selection.isDistinct_of_ascending (ascending_records sound)

/-- What a store answers to a selection at all offsets: pages of one and the same sequence, or failures. -/
theorem select_atPage (sound : s.Sound) (selection : Selection) :
    (∀ offset order, s.select (selection.atPage offset order) =
        .ok ((selection.atPage offset order).page
          ((selection.atPage offset order).sort (s.records.filter (s.finds selection))))) ∨
      ¬ s.Answers selection ∧ ∀ order, ∃ detail, ∀ offset,
        s.select (selection.atPage offset order) = .error (.persistence detail) := by
  cases s with
  | memory ledger =>
      refine .inl fun offset order => ?_
      rw [records_memory]
      rfl
  | database db =>
      obtain ⟨-, rows, table⟩ := sound.current
      obtain ⟨entries, restored⟩ := Database.entries_records sound table
      rcases Select.checkSize_cases selection with small | ⟨large, failed⟩
      · rcases Select.run_atPage selection db.indexed entries (isDistinct_records sound) with
          answered | ⟨long, failed⟩
        · refine .inl fun offset order => ?_
          change db.select _ = _
          rw [Database.select_eq table (small offset order), answered]
          refine Database.mapM_toEntry fun r shown => restored r ?_
          have sorted := Selection.mem_of_mem_page shown
          exact (List.mem_filter.mp ((Selection.perm_sort _ _).mem_iff.mp sorted)).1
        · refine .inr ⟨fun answers => long answers.2, fun order => ⟨"LIKE or GLOB pattern too complex", ?_⟩⟩
          intro offset
          change db.select _ = _
          rw [Database.select_eq table (small offset order), failed]
          rfl
      · refine .inr ⟨fun answers => large answers.1, fun order => ?_⟩
        obtain ⟨detail, failed⟩ := failed order
        refine ⟨detail, fun offset => ?_⟩
        change db.select _ = _
        unfold Database.select
        dsimp only
        rw [failed]
        rfl

end Store

end RetirementLedger

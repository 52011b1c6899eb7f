import RetirementLedger.Proofs.Database.Search
import RetirementLedger.Proofs.Snapshot.Listing

namespace RetirementLedger

namespace Select

def patternTooComplex : Failure := .persistence "LIKE or GLOB pattern too complex"

theorem checkClauses_eq_ok (statement : Select) {clauses : List Clause} {depth placeholders : Nat}
    (simple : ∀ clause ∈ clauses, clause.arity = 1 ∧ clause.depth = 2)
    (shallow : max depth 2 + clauses.length ≤ maxDepth)
    (few : placeholders + clauses.length + 2 ≤ maxPlaceholders) :
    statement.checkClauses depth placeholders clauses = .ok () := by
  induction clauses generalizing depth placeholders with
  | nil =>
      have enough : ¬ maxPlaceholders < placeholders + 2 := by simpa using few
      rw [checkClauses, if_neg enough]
  | cons clause rest ih =>
      obtain ⟨arity, height⟩ := simple clause (.head _)
      rw [List.length_cons] at shallow few
      have deeper : max (if depth = 0 then 2 else 1 + max depth 2) 2 + rest.length ≤ maxDepth := by
        split <;> omega
      have enough : ¬ maxPlaceholders < placeholders + 1 := by omega
      have shallower : ¬ maxDepth < if depth = 0 then 2 else 1 + max depth 2 := by omega
      rw [checkClauses, arity, height]
      rw [if_neg enough, if_neg shallower]
      exact ih (fun c member => simple c (.tail _ member)) deeper (by omega)

theorem test_cases (entry : String × Row) (condition : Condition) :
    (∃ kept, test entry condition = .ok kept) ∨ test entry condition = .error patternTooComplex := by
  induction condition with
  | nil => exact .inl ⟨true, rfl⟩
  | cons c rest ih =>
      obtain ⟨clause, values⟩ := c
      rw [test]
      split
      · exact .inr rfl
      · split
        · exact ih
        · exact .inl ⟨false, rfl⟩

theorem filter_cases (condition : Condition) (entries : List (String × Row)) :
    (∃ found, filter condition entries = .ok found ∧ found ⊆ entries) ∨
      filter condition entries = .error patternTooComplex := by
  induction entries with
  | nil => exact .inl ⟨[], rfl, List.Subset.refl _⟩
  | cons entry rest ih =>
      rw [filter]
      rcases test_cases entry condition with ⟨kept, tested⟩ | failed
      · rw [tested]
        rcases ih with ⟨found, filtered, known⟩ | failed
        · rw [filtered]
          refine .inl ⟨_, rfl, ?_⟩
          split
          · exact List.cons_subset_cons entry known
          · exact List.subset_cons_of_subset entry known
        · rw [failed]
          exact .inr rfl
      · rw [failed]
        exact .inr rfl

theorem run_cases (s : Selection) (rows : Catalog Row) (migrated : Bool) :
    (∃ found, (ofSelection s).run migrated rows = .ok found ∧ found ⊆ rows.entries) ∨
      ¬ IsShort (condition s) ∧ (ofSelection s).run migrated rows = .error patternTooComplex := by
  unfold run
  rw [bind_ofSelection]
  dsimp only
  generalize Route.choose (condition s) ((ofSelection s).orderBy.map (·.1)) migrated = route
  rcases filter_cases (route.remaining (condition s))
      (rows.entries.filter (route.reaches (condition s))) with ⟨found, filtered, known⟩ | failed
  · rw [filtered]
    refine .inl ⟨_, rfl, fun entry member => ?_⟩
    have sorted := List.mem_of_mem_drop (List.mem_of_mem_take member)
    have kept := known ((List.mergeSort_perm _ _).mem_iff.mp sorted)
    exact (List.mem_filter.mp kept).1
  · rw [failed]
    refine .inr ⟨fun short => ?_, rfl⟩
    rw [filter_eq (short.remaining route)] at failed
    cases failed

theorem filter_of_refused {condition : Condition} {entries : List (String × Row)} {f : Failure}
    (filled : entries ≠ []) (refused : ∀ entry ∈ entries, test entry condition = .error f) :
    filter condition entries = .error f := by
  cases entries with
  | nil => exact absurd rfl filled
  | cons entry rest =>
      rw [filter, refused entry (.head _)]
      rfl

theorem run_of_long {s : Selection} {rows : Catalog Row} {id pattern : String} {field : TextField}
    (asked : s.predicates = [.textEq .agreementId id, .textLike field pattern])
    (held : rows.contains id = true) (long : Clause.maxPatternSize < pattern.utf8ByteSize)
    (migrated : Bool) : (ofSelection s).run migrated rows = .error patternTooComplex := by
  obtain ⟨row, found⟩ := Option.isSome_iff_exists.mp held
  have parts : condition s =
      [(.equal .agreementId, [.text id]), (.like (.ofTextField field), [.text pattern])] := by
    rw [condition, asked]
    rfl
  -- The route goes by the agreement id, which leaves the pattern to be tested.
  let route : Route := Route.search (condition s) .agreementId [⟨0, .agreementId, .equal⟩] 1 0
  have taken : Route.choose (condition s) ((ofSelection s).orderBy.map (·.1)) migrated = route := by
    simp only [route, parts]
    rfl
  have left : route.remaining (condition s) = [(.like (.ofTextField field), [.text pattern])] := by
    simp only [route, parts]
    cases field <;> rfl
  have reached : (id, row) ∈ rows.entries.filter (route.reaches (condition s)) := by
    refine List.mem_filter.mpr ⟨Catalog.find?_eq_some_iff.mp found, ?_⟩
    simp only [route, parts]
    simp [Route.reaches, Route.search, Clause.holds, Clause.column, Column.of]
  have refused (entry : String × Row) :
      test entry (route.remaining (condition s)) = .error patternTooComplex := by
    rw [left, test, Clause.isTooComplex, if_pos (decide_eq_true long)]
    rfl
  unfold run
  rw [bind_ofSelection]
  dsimp only
  rw [taken, filter_of_refused (List.ne_nil_of_mem reached) fun entry _ => refused entry]
  rfl

end Select

namespace Database

variable {db : Database} {rows : Catalog Row}

theorem exists_mapM {entries : List (String × Row)}
    (readable : ∀ e ∈ entries, ∃ r, e.2.toRetirement e.1 = .ok r) :
    ∃ records, entries.mapM (fun e => e.2.toRetirement e.1) = .ok records := by
  induction entries with
  | nil => exact ⟨[], rfl⟩
  | cons e entries ih =>
      obtain ⟨r, read⟩ := readable e (.head _)
      obtain ⟨records, others⟩ := ih fun e member => readable e (.tail _ member)
      refine ⟨r :: records, ?_⟩
      rw [List.mapM_cons, read, others]
      rfl

theorem select_eq (table : db.table = some (.standard rows)) {s : Selection}
    (sized : (Select.ofSelection s).checkSize = .ok ()) :
    db.select s = (Select.ofSelection s).run db.indexed rows >>= fun found =>
      found.mapM fun e => e.2.toRetirement e.1 := by
  have whole : db.readable (Select.ofSelection s).sql = .ok rows := by simp [Database.readable, table]
  unfold select
  dsimp only
  rw [sized, whole]
  rfl

theorem select_cases (sound : (Store.database db).Sound) {s : Selection}
    (sized : (Select.ofSelection s).checkSize = .ok ()) :
    (∃ records, db.select s = .ok records ∧
        ∀ r ∈ records, (Store.database db).record? r.agreementId = some r) ∨
      ¬ Select.IsShort (Select.condition s) ∧ db.select s = .error Select.patternTooComplex := by
  obtain ⟨-, rows, table⟩ := sound.current
  have readable := isReadable_of_sound sound table
  rw [select_eq table sized]
  rcases Select.run_cases s rows db.indexed with ⟨found, run, known⟩ | ⟨long, run⟩
  · obtain ⟨records, read⟩ := @exists_mapM found fun e member =>
      readable e.1 e.2 (Catalog.find?_eq_some_iff.mpr (known member))
    obtain ⟨entries, restored⟩ := entries_of_mapM read
    refine .inl ⟨records, ?_, fun r member => ?_⟩
    · rw [run, ← read]
      rfl
    · refine record?_of_entry table (known ?_) (restored r member)
      rw [← entries]
      exact List.mem_map_of_mem member
  · refine .inr ⟨long, ?_⟩
    rw [run]
    rfl

theorem select_of_long (sound : (Store.database db).Sound) {s : Selection}
    (sized : (Select.ofSelection s).checkSize = .ok ()) {id pattern : String} {field : TextField}
    (asked : s.predicates = [.textEq .agreementId id, .textLike field pattern])
    (held : ((Store.database db).record? id).isSome = true)
    (long : Clause.maxPatternSize < pattern.utf8ByteSize) :
    db.select s = .error Select.patternTooComplex := by
  obtain ⟨-, rows, table⟩ := sound.current
  have contained : rows.contains id = true := by
    rw [record?_eq table] at held
    obtain ⟨r, found⟩ := Option.isSome_iff_exists.mp held
    obtain ⟨row, known, -⟩ := Option.bind_eq_some_iff.mp found
    rw [Catalog.contains, known, Option.isSome_some]
  rw [select_eq table sized, Select.run_of_long asked contained long]
  rfl

end Database

end RetirementLedger

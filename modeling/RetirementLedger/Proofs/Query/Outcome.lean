import RetirementLedger.Proofs.Creation
import RetirementLedger.Proofs.Database.Reply
import RetirementLedger.Proofs.Query.Spelling

namespace RetirementLedger

namespace Page

theorem exists_toJson? {p : Page} (writable : ∀ r ∈ p.items, r.retiredAt.isWritable = true) :
    ∃ data, p.toJson? = some data := by
  obtain ⟨written, items⟩ := Json.exists_mapM fun r member =>
    Retirement.exists_toJson? (writable r member)
  exact ⟨_, by rw [toJson?, items]; rfl⟩

theorem ofJson?_of_toJson? {p : Page} {data : Json} (written : p.toJson? = some data) :
    ofJson? data = some p := by
  obtain ⟨items, each, same⟩ := Option.bind_eq_some_iff.mp written
  cases same
  have slots : (Json.ofFields [("items", .array items), ("offset", .word32 p.offset),
      ("limit", .word32 p.limit)]).slots? [["items"], ["offset"], ["limit"]] =
        some [.given (.array items), .given (.word32 p.offset), .given (.word32 p.limit)] :=
    Json.slots?_ofFields [("items", _), ("offset", _), ("limit", _)] (by simp)
  have list := Json.list?_of_mapM (fun _ _ => Retirement.ofJson?_of_toJson?) each
  rw [ofJson?, slots]
  simp [Json.Slot.required, list, Json.word32?_word32]

end Page

namespace RetirementQuery

variable {q : RetirementQuery} {s : Selection}

def patterns (q : RetirementQuery) : List String :=
  (q.agreementIdPrefix.toList ++ q.reasonPrefix.toList).map prefixPattern

def HasLimit (q : RetirementQuery) : Prop :=
  1 ≤ (q.limit.getD defaultLimit).toNat ∧ (q.limit.getD defaultLimit).toNat ≤ maxLimit

instance (q : RetirementQuery) : Decidable q.HasLimit := inferInstanceAs (Decidable (_ ∧ _))

theorem exists_compile (inside : q.HasLimit) : ∃ s, q.compile = .ok s := ⟨_, dif_pos inside⟩

theorem selection_of_compile (compiled : q.compile = .ok s) :
    s.predicates = q.predicates ∧ s.offset = q.offset.getD 0 ∧ s.limit = q.limit.getD defaultLimit := by
  unfold compile Selection.make at compiled
  split at compiled
  · cases compiled
    exact ⟨rfl, rfl, rfl⟩
  · cases compiled

theorem forall_mem_predicates {P : Predicate → Prop} (eq : ∀ field value, P (.textEq field value))
    (like : ∀ field, ∀ pattern ∈ q.patterns, P (.textLike field pattern))
    (gt : ∀ millis, P (.atGt millis)) (lt : ∀ millis, P (.atLt millis)) :
    ∀ p ∈ q.predicates, P p := by
  have each {α : Type} {o : Option α} {f : α → Predicate} (holds : ∀ a ∈ o, P (f a)) :
      ∀ p ∈ (o.map f).toList, P p := by
    intro p member
    obtain ⟨a, known, rfl⟩ := Option.map_eq_some_iff.mp (Option.mem_toList.mp member)
    exact holds a known
  have known (start : String) (given : start ∈ q.agreementIdPrefix ∨ start ∈ q.reasonPrefix) :
      prefixPattern start ∈ q.patterns :=
    List.mem_map_of_mem (List.mem_append.mpr (given.imp Option.mem_toList.mpr Option.mem_toList.mpr))
  simp only [predicates, List.forall_mem_append]
  refine ⟨⟨⟨⟨⟨?_, ?_⟩, ?_⟩, ?_⟩, ?_⟩, ?_⟩
  · exact each fun id _ => eq _ id
  · exact each fun start given => like _ _ (known start (.inl given))
  · exact each fun reason _ => eq _ reason
  · exact each fun start given => like _ _ (known start (.inr given))
  · exact each fun t _ => gt _
  · exact each fun t _ => lt _

theorem length_predicates_le (q : RetirementQuery) : q.predicates.length ≤ 6 := by
  have one {α : Type} (o : Option α) : o.toList.length ≤ 1 := by cases o <;> simp
  simp only [predicates, List.length_append]
  have := one (q.agreementId.map (Predicate.textEq .agreementId))
  have := one (q.agreementIdPrefix.map fun p => Predicate.textLike .agreementId (prefixPattern p))
  have := one (q.reason.map (Predicate.textEq .reason))
  have := one (q.reasonPrefix.map fun p => Predicate.textLike .reason (prefixPattern p))
  have := one (q.retiredAfter.map fun t => Predicate.atGt t.unixMillis)
  have := one (q.retiredBefore.map fun t => Predicate.atLt t.unixMillis)
  omega

theorem checkSize_of_compile (compiled : q.compile = .ok s) :
    (Select.ofSelection s).checkSize = .ok () := by
  have clauses : (Select.ofSelection s).clauses =
      q.predicates.map fun p => (Clause.ofPredicate p).1 := by
    rw [← (selection_of_compile compiled).1]
    exact List.map_map
  have few := length_predicates_le q
  rw [Select.checkSize, clauses]
  refine Select.checkClauses_eq_ok _ ?_ ?_ ?_
  · exact List.forall_mem_map.mpr (forall_mem_predicates (fun _ _ => ⟨rfl, rfl⟩)
      (fun _ _ _ => ⟨rfl, rfl⟩) (fun _ => ⟨rfl, rfl⟩) fun _ => ⟨rfl, rfl⟩)
  · simp only [List.length_map, Select.maxDepth]
    omega
  · simp only [List.length_map, Select.maxPlaceholders]
    omega

theorem isShort_of_compile (compiled : q.compile = .ok s)
    (short : ∀ pattern ∈ q.patterns, pattern.utf8ByteSize ≤ Clause.maxPatternSize) :
    Select.IsShort (Select.condition s) := by
  rw [Select.IsShort, Select.condition, (selection_of_compile compiled).1]
  refine List.forall_mem_map.mpr (forall_mem_predicates (fun _ _ => rfl) ?_ (fun _ => rfl) fun _ => rfl)
  intro field pattern known
  exact decide_eq_false (Nat.not_lt.mpr (short pattern known))

end RetirementQuery

namespace Store

theorem select_cases {store : Store} (sound : store.Sound) {q : RetirementQuery} {s : Selection}
    (compiled : q.compile = .ok s) :
    (∃ items, store.select s = .ok items ∧ ∀ r ∈ items, store.Holds r) ∨
      store.isDatabase = true ∧ (∃ pattern ∈ q.patterns, Clause.maxPatternSize < pattern.utf8ByteSize) ∧
        store.select s = .error Select.patternTooComplex := by
  cases store with
  | memory ledger =>
      refine .inl ⟨_, rfl, fun r member => ?_⟩
      obtain ⟨id, held⟩ := Catalog.mem_values.mp (Selection.mem_of_mem_apply member)
      have recorded : (Store.memory ledger).record? id = some r := held
      rw [Holds, (sound.filed id r recorded).1, recorded]
  | database db =>
      rcases Database.select_cases sound (RetirementQuery.checkSize_of_compile compiled) with
        ⟨items, selected, known⟩ | ⟨long, failed⟩
      · exact .inl ⟨items, selected, known⟩
      · refine .inr ⟨rfl, ?_, failed⟩
        by_contra short
        refine long (RetirementQuery.isShort_of_compile compiled fun pattern known => ?_)
        exact Nat.not_lt.mp fun excess => short ⟨pattern, known, excess⟩

end Store

namespace Service

theorem find_of_compile {s : Service} {q : RetirementQuery} {selection : Selection}
    (compiled : q.compile = .ok selection) (working : s.store.faults.query = none) :
    s.find q = (s.holdings.select selection).map (⟨·, selection.offset, selection.limit⟩) := by
  rw [find, compiled]
  change s.select selection = _
  rw [select, FaultyStore.select, working]
  cases s.holdings.select selection <;> rfl

inductive Found (s : Service) (q : RetirementQuery) : Except Failure Page → Prop
  | refused (outside : ¬ q.HasLimit) :
      Found s q (.error (.invalidArgument ("limit MUST be in [1, " ++ toString maxLimit ++ "], got " ++
        toString (q.limit.getD defaultLimit).toNat)))
  | failed {f : Failure} (inside : q.HasLimit) (fault : s.store.faults.query = some f) :
      Found s q (.error f)
  | tooComplex (inside : q.HasLimit) (kind : s.holdings.isDatabase = true)
      (long : ∃ pattern ∈ q.patterns, Clause.maxPatternSize < pattern.utf8ByteSize) :
      Found s q (.error Select.patternTooComplex)
  | page {items : List Retirement} (inside : q.HasLimit) (held : ∀ r ∈ items, s.holdings.Holds r) :
      Found s q (.ok ⟨items, q.offset.getD 0, q.limit.getD defaultLimit⟩)

theorem found {s : Service} (sound : s.holdings.Sound) (q : RetirementQuery) : Found s q (s.find q) := by
  by_cases inside : q.HasLimit
  · obtain ⟨selection, compiled⟩ := RetirementQuery.exists_compile inside
    obtain ⟨-, offset, limit⟩ := RetirementQuery.selection_of_compile compiled
    cases fault : s.store.faults.query with
    | some f =>
        rw [find, compiled]
        change Found s q (s.select selection)
        rw [select, FaultyStore.select, fault]
        exact .failed inside fault
    | none =>
        rw [find_of_compile compiled fault]
        rcases Store.select_cases sound compiled with ⟨items, selected, held⟩ | ⟨kind, long, failed⟩
        · rw [selected, offset, limit]
          exact .page inside held
        · rw [failed]
          exact .tooComplex inside kind long
  · have refused : q.compile = .error _ := dif_neg inside
    rw [find, refused]
    exact .refused inside

end Service

end RetirementLedger

import RetirementLedger.Database.Search
import RetirementLedger.Proofs.Like

/-!
Whatever route is taken, it leads to the same rows. The terms of a route all come from the condition, and
what they do not settle is tested afterwards. A pattern's literal start is the one term that says less than
its clause, unless nothing but one `%` follows it.
-/
namespace RetirementLedger

namespace Clause
open Like

variable {value literal : List Char}

/-- The pattern starts with these characters, each of which stands for itself, and then ends in a run if
nothing else follows. -/
def StartsWith (pattern : List Char) (start : List Char × Bool) : Prop :=
  (∀ tokens, tokens? pattern = some tokens → ∃ rest, tokens = start.1.map .literal ++ rest) ∧
    (start.2 = true → tokens? pattern = some (start.1.map .literal ++ [.anyRun]))

theorem StartsWith.cons {pattern rest : List Char} {start : List Char × Bool}
    (starts : StartsWith rest start)
    {c : Char} (parsed : tokens? pattern = (tokens? rest).map (.literal c :: ·)) :
    StartsWith pattern (c :: start.1, start.2) := by
  refine ⟨fun tokens whole => ?_, fun complete => ?_⟩
  · rw [parsed] at whole
    obtain ⟨later, parsed, rfl⟩ := Option.map_eq_some_iff.mp whole
    obtain ⟨others, rfl⟩ := starts.1 later parsed
    exact ⟨others, rfl⟩
  · rw [parsed, starts.2 complete]
    rfl

theorem startsWith_literalStart (pattern : List Char) : StartsWith pattern (literalStart pattern) := by
  have nothing {pattern : List Char} : StartsWith pattern ([], false) :=
    ⟨fun tokens _ => ⟨tokens, rfl⟩, fun complete => by cases complete⟩
  -- A character that stands for itself goes in front of what the rest starts with; all else ends it.
  induction pattern using literalStart.induct with
  | case1 => exact nothing
  | case2 => exact nothing
  | case3 => exact ⟨fun tokens _ => ⟨tokens, rfl⟩, fun _ => rfl⟩
  | case4 rest more =>
      simp only [literalStart]
      exact nothing
  | case5 rest => exact nothing
  | case6 c rest literal complete start ih =>
      simp only [literalStart]
      exact ih.cons (by simp only [tokens?])
  | case7 c rest noEscapeEnd noRunEnd noRun noOne noEscape literal complete start ih =>
      simp only [literalStart]
      exact ih.cons (by simp only [tokens?])

theorem matches_literals {rest : List Token} :
    Matches (literal.map .literal ++ rest) value ↔
      ∃ more, value = literal ++ more ∧ Matches rest more := by
  induction literal generalizing value with
  | nil => simp
  | cons c literal ih =>
      cases value with
      | nil => simp [not_matches_nil]
      | cons d value =>
          rw [List.map_cons, List.cons_append, matches_cons (by simp), ih]
          simp [Token.takes, and_assoc]

variable {pattern text : String}

theorem isPrefixOf_of_denotes (denotes : Denotes pattern text) :
    (literalStart pattern.toList).1.isPrefixOf text.toList = true := by
  obtain ⟨tokens, parsed, shared⟩ := denotes
  obtain ⟨rest, rfl⟩ := (startsWith_literalStart pattern.toList).1 tokens parsed
  obtain ⟨more, split, -⟩ := matches_literals.mp shared
  exact List.isPrefixOf_iff_prefix.mpr ⟨more, split.symm⟩

theorem denotes_of_isPrefixOf (complete : (literalStart pattern.toList).2 = true)
    (starts : (literalStart pattern.toList).1.isPrefixOf text.toList = true) : Denotes pattern text := by
  obtain ⟨more, split⟩ := List.isPrefixOf_iff_prefix.mp starts
  refine ⟨_, (startsWith_literalStart pattern.toList).2 complete, matches_literals.mpr ?_⟩
  exact ⟨more, split.symm, matches_anyRun_iff.mpr ⟨[], List.nil_suffix, .nil⟩⟩

end Clause

namespace Condition

variable {condition : Condition} {t : Term} {entry : String × Row}

theorem of_mem_terms (member : t ∈ condition.terms) :
    ∃ clause values, condition[t.place]? = some (clause, values) ∧ clause.column = t.column ∧
      (clause.ownRestriction? = some t.restriction ∨
        t.restriction ∈ clause.impliedRestrictions values) := by
  rcases List.mem_append.mp member with own | implied
  · obtain ⟨⟨⟨clause, values⟩, place⟩, placed, term⟩ := List.mem_filterMap.mp own
    obtain ⟨restriction, said, rfl⟩ := Option.map_eq_some_iff.mp term
    exact ⟨clause, values, List.mem_zipIdx_iff_getElem?.mp placed, rfl, .inl said⟩
  · obtain ⟨⟨⟨clause, values⟩, place⟩, placed, term⟩ := List.mem_flatMap.mp implied
    obtain ⟨restriction, said, rfl⟩ := List.mem_map.mp term
    exact ⟨clause, values, List.mem_zipIdx_iff_getElem?.mp (List.mem_reverse.mp placed), rfl,
      .inr said⟩

theorem of_mem_terms_start (member : t ∈ condition.terms) {literal : List Char} {complete : Bool}
    (start : t.restriction = .start literal complete) :
    ∃ pattern, condition[t.place]? = some (.like t.column, [.text pattern]) ∧
      Clause.literalStart (SqlValue.untilNul pattern).toList = (literal, complete) := by
  obtain ⟨clause, values, here, column, own | implied⟩ := of_mem_terms member
  · rw [start] at own
    unfold Clause.ownRestriction? at own
    split at own <;> cases own
  · rw [start] at implied
    unfold Clause.impliedRestrictions at implied
    split at implied
    · simp at implied
    · next column' pattern =>
        cases column
        refine ⟨pattern, here, ?_⟩
        dsimp only at implied
        split at implied
        · cases implied
        · cases List.mem_singleton.mp implied
          rfl
    · cases implied

def IsPlain (condition : Condition) (entry : String × Row) : Prop :=
  ∀ column pattern, (.like column, [.text pattern]) ∈ condition →
    SqlValue.untilNul pattern = pattern ∧ ∃ text, column.of entry = .text text ∧
      (SqlValue.isLike (.text text) (.text pattern) = true ↔ Like.Denotes pattern text)

def holds (condition : Condition) (entry : String × Row) : Bool :=
  condition.all fun c => c.1.holds c.2 entry

end Condition

namespace Route

variable {condition : Condition} {route : Route} {entry : String × Row}

def IsReached (condition : Condition) (entry : String × Row) (t : Term) : Prop :=
  match t.restriction with
  | .start literal _ => ∃ text, t.column.of entry = .text text ∧ literal.isPrefixOf text.toList = true
  | _ => ∃ clause values, condition[t.place]? = some (clause, values) ∧
      clause.holds values entry = true

theorem reaches_iff :
    route.reaches condition entry = true ↔ ∀ t ∈ route.terms, IsReached condition entry t := by
  unfold reaches
  rw [List.all_eq_true]
  refine forall₂_congr fun t member => ?_
  unfold IsReached
  cases t.restriction <;> cases t.column.of entry <;> simp [Option.any_eq_true]

theorem isReached_of_holds {t : Term} (member : t ∈ condition.terms) (plain : condition.IsPlain entry)
    (holds : condition.holds entry = true) : IsReached condition entry t := by
  have each (clause : Clause) (values : List SqlValue) (place : Nat)
      (here : condition[place]? = some (clause, values)) : clause.holds values entry = true :=
    List.all_eq_true.mp holds _ (List.mem_of_getElem? here)
  have said : ∃ clause values, condition[t.place]? = some (clause, values) ∧
      clause.holds values entry = true := by
    obtain ⟨clause, values, here, -⟩ := Condition.of_mem_terms member
    exact ⟨clause, values, here, each clause values _ here⟩
  unfold IsReached
  -- A literal start says less than its clause, any other restriction is asked for as the clause itself.
  cases start : t.restriction with
  | start literal complete =>
      obtain ⟨pattern, here, first⟩ := Condition.of_mem_terms_start member start
      obtain ⟨unbroken, text, value, documented⟩ := plain _ _ (List.mem_of_getElem? here)
      have liked : (t.column.of entry).isLike (.text pattern) = true := each _ _ _ here
      rw [value] at liked
      have begins := Clause.isPrefixOf_of_denotes (documented.mp liked)
      rw [← unbroken, first] at begins
      exact ⟨text, value, begins⟩
  | equal => exact said
  | isIn count => exact said
  | lower => exact said
  | upper => exact said

theorem mem_answered {terms : List Term} {place : Nat} :
    place ∈ answered terms ↔
      ∃ t ∈ terms, t.place = place ∧ ∀ literal, t.restriction ≠ .start literal false := by
  unfold answered
  rw [List.mem_filterMap]
  refine exists_congr fun t => and_congr_right fun _ => ?_
  cases restriction : t.restriction with
  | start literal complete => cases complete <;> simp
  | equal => simp
  | isIn count => simp
  | lower => simp
  | upper => simp

theorem holds_of_isReached {t : Term} (member : t ∈ condition.terms)
    (plain : condition.IsPlain entry) (whole : ∀ literal, t.restriction ≠ .start literal false)
    (reached : IsReached condition entry t) :
    ∃ clause values, condition[t.place]? = some (clause, values) ∧
      clause.holds values entry = true := by
  unfold IsReached at reached
  cases start : t.restriction with
  | start literal complete =>
      obtain ⟨pattern, here, first⟩ := Condition.of_mem_terms_start member start
      obtain ⟨unbroken, text, value, documented⟩ := plain _ _ (List.mem_of_getElem? here)
      rw [start] at reached
      obtain ⟨text', value', begins⟩ := reached
      cases value.symm.trans value'
      rw [unbroken] at first
      cases complete with
      | false => exact absurd start (whole literal)
      | true =>
          refine ⟨_, _, here, ?_⟩
          change (t.column.of entry).isLike (.text pattern) = true
          rw [value]
          exact documented.mpr (Clause.denotes_of_isPrefixOf (by rw [first]) (by rwa [first]))
  | equal => simpa only [start] using reached
  | isIn count => simpa only [start] using reached
  | lower => simpa only [start] using reached
  | upper => simpa only [start] using reached

theorem mem_remaining {c : Clause × List SqlValue} :
    c ∈ route.remaining condition ↔
      ∃ place, condition[place]? = some c ∧ place ∉ answered route.terms := by
  have left : c ∈ route.remaining condition ↔ c ∈ condition.zipIdx.filterMap fun placed =>
      if (answered route.terms).contains placed.2 then none else some placed.1 := by
    unfold remaining
    simp only [List.mem_append, List.mem_filter, ← and_or_left]
    exact and_iff_left (by cases route.index.any _ <;> simp)
  rw [left, List.mem_filterMap]
  constructor
  · rintro ⟨⟨c, place⟩, placed, stays⟩
    refine ⟨place, ?_⟩
    by_cases answers : place ∈ answered route.terms
    · simp [answers] at stays
    · simp only [List.contains_iff_mem, answers, if_false, Option.some.injEq] at stays
      cases stays
      exact ⟨List.mem_zipIdx_iff_getElem?.mp placed, answers⟩
  · rintro ⟨place, here, answers⟩
    exact ⟨(c, place), List.mem_zipIdx_iff_getElem?.mpr here, by simp [answers]⟩

/-- The rows that the route leads to and that pass what is left of the condition are those that meet it. -/
theorem reaches_and_remaining (sound : ∀ t ∈ route.terms, t ∈ condition.terms)
    (plain : condition.IsPlain entry) :
    (route.reaches condition entry && (route.remaining condition).holds entry) =
      condition.holds entry := by
  rw [Bool.eq_iff_iff, Bool.and_eq_true, reaches_iff]
  constructor
  · rintro ⟨reached, left⟩
    refine List.all_eq_true.mpr fun c member => ?_
    obtain ⟨place, here⟩ := List.mem_iff_getElem?.mp member
    by_cases answers : place ∈ answered route.terms
    · obtain ⟨t, taken, rfl, whole⟩ := mem_answered.mp answers
      obtain ⟨clause, values, here', holds⟩ :=
        holds_of_isReached (sound t taken) plain whole (reached t taken)
      cases here.symm.trans here'
      exact holds
    · exact List.all_eq_true.mp left c (mem_remaining.mpr ⟨place, here, answers⟩)
  · intro holds
    refine ⟨fun t taken => isReached_of_holds (sound t taken) plain holds, ?_⟩
    refine List.all_eq_true.mpr fun c member => ?_
    obtain ⟨place, here, -⟩ := mem_remaining.mp member
    exact List.all_eq_true.mp holds c (List.mem_of_getElem? here)

section
variable {index : Index} {terms : List Term} {first : Term}

theorem terms_searchesFrom (taken : route ∈ searchesFrom condition index terms first) :
    ∀ t ∈ route.terms, t = first ∨ t ∈ terms := by
  have alone {t : Term} (member : t ∈ [first]) : t = first ∨ t ∈ terms :=
    .inl (List.mem_singleton.mp member)
  have both {second t : Term} (known : second ∈ terms) (member : t ∈ [first, second]) :
      t = first ∨ t ∈ terms := by
    rcases List.mem_cons.mp member with rfl | other
    · exact .inl rfl
    · rw [List.mem_singleton.mp other]
      exact .inr known
  unfold searchesFrom at taken
  cases restriction : first.restriction with
  | equal =>
      simp only [restriction] at taken
      rcases List.mem_cons.mp taken with rfl | more
      · exact fun t => alone
      · obtain ⟨second, known, made⟩ := List.mem_filterMap.mp more
        split at made
        · split at made
          · cases made
            exact fun t => both known
          · cases made
            exact fun t => both known
          · cases made
        · cases made
  | isIn count =>
      simp only [restriction] at taken
      cases List.mem_singleton.mp taken
      exact fun t => alone
  | lower =>
      simp only [restriction] at taken
      rcases List.mem_cons.mp taken with rfl | more
      · exact fun t => alone
      · obtain ⟨second, known, rfl⟩ := List.mem_map.mp more
        exact fun t => both (List.mem_filter.mp known).1
  | upper =>
      simp only [restriction] at taken
      cases List.mem_singleton.mp taken
      exact fun t => alone
  | start literal complete =>
      simp only [restriction] at taken
      cases List.mem_singleton.mp taken
      exact fun t => alone

theorem cheapest_mem (cost : Route → Int × Int) (best : Route) (routes : List Route) :
    cheapest cost best routes ∈ best :: routes := by
  unfold cheapest
  induction routes generalizing best with
  | nil => exact .head _
  | cons r rest ih =>
      rw [List.foldl_cons]
      split
      · exact List.mem_cons_of_mem _ (ih r)
      · rcases List.mem_cons.mp (ih best) with same | later
        · rw [same]
          exact .head _
        · exact List.mem_cons_of_mem _ (List.mem_cons_of_mem _ later)

theorem terms_all (migrated : Bool) (taken : route ∈ all condition migrated) :
    ∀ t ∈ route.terms, t ∈ condition.terms := by
  rcases List.mem_cons.mp taken with rfl | search
  · exact fun t member => by cases member
  · obtain ⟨index, -, search⟩ := List.mem_flatMap.mp search
    rcases List.mem_append.mp search with whole | search
    · split at whole
      · cases List.mem_singleton.mp whole
        exact fun t member => by cases member
      · cases whole
    · obtain ⟨first, known, search⟩ := List.mem_flatMap.mp search
      intro t member
      rcases terms_searchesFrom search t member with rfl | known
      · exact (List.mem_filter.mp known).1
      · exact known

theorem terms_choose (condition : Condition) (order : List Column) (migrated : Bool) :
    ∀ t ∈ (choose condition order migrated).terms, t ∈ condition.terms := by
  have unordered : ∀ t ∈ (cheapestUnordered condition migrated).terms, t ∈ condition.terms := by
    rcases List.mem_cons.mp (cheapest_mem (fun r => (Estimate.add r.cost 0, 0))
      (wholeTable condition) (all condition migrated)) with same | taken
    · unfold cheapestUnordered
      rw [same]
      exact fun t member => by cases member
    · exact terms_all migrated taken
  unfold choose
  split
  · next t found =>
      intro other member
      cases List.mem_singleton.mp member
      exact List.mem_of_find?_eq_some found
  · dsimp only
    split
    · exact unordered
    · next r rest considered =>
        have taken := cheapest_mem (costInOrder condition order
          (if (cheapestUnordered condition migrated).rows < 0 then 1
            else (cheapestUnordered condition migrated).rows + 1)) r rest
        rw [← considered] at taken
        refine terms_all migrated ?_
        split at taken
        · exact (List.mem_filter.mp taken).1
        · exact taken

end

end Route

end RetirementLedger

import RetirementLedger.Proofs.Database.Paging
import RetirementLedger.Proofs.InsertionOrder
import RetirementLedger.Proofs.Pattern

namespace RetirementLedger

theorem Like.isMatch_runs (n : Nat) (value : String) :
    isMatch (.ofList (List.replicate (n + 1) '%')) value = true := by
  have none (n : Nat) : Shares (List.replicate n '%') [] := by
    induction n with
    | zero => exact .nil
    | succ n ih => exact .run [] ih
  rw [← shares_iff, String.toList_ofList, List.replicate_succ, ← List.append_nil value.toList]
  exact .run value.toList (none n)

def SortOrder.reversed : SortOrder → SortOrder
  | .ascending => .descending
  | .descending => .ascending

namespace Selection

variable {field : SortField} {a b : Retirement} {records : List Retirement}

def Earlier (field : SortField) (a b : Retirement) : Prop :=
  match field with
  | .retiredAt => a.retiredAtMillis < b.retiredAtMillis ∨
      a.retiredAtMillis = b.retiredAtMillis ∧ a.agreementId < b.agreementId
  | .agreementId => a.agreementId < b.agreementId

def Before (s : Selection) (a b : Retirement) : Prop :=
  match s.sortOrder with
  | .ascending => Earlier s.sortField a b
  | .descending => Earlier s.sortField b a

def reversed (s : Selection) : Selection := { s with sortOrder := s.sortOrder.reversed }

theorem earlier_of_precedes (precedes : precedes field a b = true) (apart : a.agreementId ≠ b.agreementId) :
    Earlier field a b := by
  have strict (le : a.agreementId ≤ b.agreementId) : a.agreementId < b.agreementId :=
    Classical.byContradiction fun not_lt => apart (String.le_antisymm le (String.not_lt.mp not_lt))
  rw [precedes_iff] at precedes
  cases field with
  | agreementId => exact strict precedes
  | retiredAt => exact precedes.imp_right fun later => ⟨later.1, strict later.2⟩

theorem sort_reversed (s : Selection) (records : List Retirement) :
    s.reversed.sort records = (s.sort records).reverse := by
  cases order : s.sortOrder with
  | ascending => simp only [sort, reversed, order, SortOrder.reversed]
  | descending => simp only [sort, reversed, order, SortOrder.reversed, List.reverse_reverse]

theorem pairwise_sort (s : Selection) (distinct : (records.map (·.agreementId)).Nodup) :
    (s.sort records).Pairwise s.Before := by
  have upwards : (records.mergeSort (precedes s.sortField)).Pairwise (Earlier s.sortField) := by
    have apart : ((records.mergeSort (precedes s.sortField)).map (·.agreementId)).Nodup :=
      ((List.mergeSort_perm _ _).map _).nodup_iff.mpr distinct
    refine ((pairwise_mergeSort s.sortField records).and (List.pairwise_map.mp apart)).imp ?_
    rintro a b ⟨precedes, apart⟩
    exact earlier_of_precedes precedes apart
  unfold sort Before
  cases s.sortOrder with
  | ascending => exact upwards
  | descending => exact List.pairwise_reverse.mpr upwards

end Selection

namespace Store

/-- The pages of a selection from an offset on, up to the first empty one. -/
def pagesFrom (s : Store) (selection : Selection) (offset : Nat) :
    Except Failure (List (List Retirement)) :=
  if offset < 0x100000000 then do
    let page ← s.select { selection with offset := .ofNat offset }
    if page.isEmpty then return []
    else return page :: (← s.pagesFrom selection (offset + selection.limit.toNat))
  else return []
termination_by 0x100000000 - offset
decreasing_by
  have := selection.limit_bound
  omega

def pages (s : Store) (selection : Selection) : Except Failure (List (List Retirement)) :=
  s.pagesFrom selection 0

variable {s : Store} {selection : Selection} {found : List Retirement}

theorem exists_pagesFrom (selection : Selection) (few : found.length < 0x100000000)
    (answered : ∀ offset, s.select { selection with offset } =
      .ok ((found.drop offset.toNat).take selection.limit.toNat)) (offset : Nat) :
    ∃ pages, s.pagesFrom selection offset = .ok pages ∧ pages.flatten = found.drop offset ∧
      ∀ page ∈ pages, page.length ≤ selection.limit.toNat := by
  fun_induction pagesFrom s selection offset with
  | case1 offset inside ih =>
      have here : (UInt32.ofNat offset).toNat = offset := UInt32.toNat_ofNat_of_lt inside
      rw [answered, here]
      cases page : (found.drop offset).take selection.limit.toNat with
      | nil =>
          have sized := selection.limit_bound.1
          refine ⟨[], rfl, ?_, fun page member => by cases member⟩
          rcases List.take_eq_nil_iff.mp page with none | ended
          · omega
          · rw [ended, List.flatten_nil]
      | cons first rest =>
          obtain ⟨pages, read, shown, short⟩ := ih
          refine ⟨(first :: rest) :: pages, ?_, ?_, List.forall_mem_cons.mpr ⟨?_, short⟩⟩
          · rw [read]
            rfl
          · rw [List.flatten_cons, shown, ← page, ← List.drop_drop, List.take_append_drop]
          · rw [← page]
            exact List.length_take_le _ _
  | case2 offset outside =>
      refine ⟨[], rfl, ?_, fun page member => by cases member⟩
      exact (List.drop_eq_nil_of_le (by omega)).symm

structure Paginates (s : Store) (selection : Selection) (pages : List (List Retirement)) : Prop where
  read : s.pages selection = .ok pages
  short : ∀ page ∈ pages, page.length ≤ selection.limit.toNat
  exact : ∀ r, r ∈ pages.flatten ↔ s.Holds r ∧ s.finds selection r = true
  once : pages.flatten.Nodup
  ordered : pages.flatten.Pairwise selection.Before
  reversed : ∃ others, s.pages selection.reversed = .ok others ∧
    others.flatten = pages.flatten.reverse

theorem exists_paginates (sound : s.Sound) (selection : Selection)
    (few : (s.records.filter (s.finds selection)).length < 0x100000000) :
    (∃ pages, s.Paginates selection pages) ∨
      ¬ s.Answers selection ∧ ∃ detail, ∀ offset,
        s.select { selection with offset } = .error (.persistence detail) := by
  rcases select_atPage sound selection with answered | ⟨unanswered, failed⟩
  · let found := s.records.filter (s.finds selection)
    have distinct : (found.map (·.agreementId)).Nodup := by
      refine List.pairwise_map.mpr (((ascending_records sound).filter _).imp fun {a b} less same => ?_)
      rw [same] at less
      exact String.lt_irrefl _ less
    have sorted := selection.perm_sort found
    have size (t : Selection) : (t.sort found).length < 0x100000000 := by
      rwa [(t.perm_sort found).length_eq]
    have turned (offset : UInt32) : s.select { selection.reversed with offset } =
        .ok (((selection.reversed.sort found).drop offset.toNat).take selection.reversed.limit.toNat) :=
      answered offset selection.sortOrder.reversed
    obtain ⟨pages, read, shown, short⟩ := exists_pagesFrom selection (size selection)
      (fun offset => answered offset selection.sortOrder) 0
    obtain ⟨others, read', shown', -⟩ := exists_pagesFrom selection.reversed (size _) turned 0
    rw [List.drop_zero] at shown shown'
    refine .inl ⟨pages, read, short, fun r => ?_, ?_, ?_, others, read', ?_⟩
    · rw [shown, sorted.mem_iff, List.mem_filter, mem_records sound]
    · rw [shown, sorted.nodup_iff]
      exact List.Nodup.of_map _ distinct
    · rw [shown]
      exact selection.pairwise_sort distinct
    · rw [shown, shown', Selection.sort_reversed]
  · exact .inr ⟨unanswered, failed selection.sortOrder⟩

end Store

namespace System

/-- The pages of a selection show everything that it finds once, in order, and turned around when the order is.
Only a database can fail to answer. What is found is what the selection holds of, unless LIKE is to compare
characters that a database reads in its own way. The order of insertions plays no part. -/
theorem paged_once {s : System} (reachable : s.Reachable) (selection : Selection)
    (few : (s.store.records.filter (s.store.finds selection)).length < 0x100000000) :
    ((∃ pages, s.store.Paginates selection pages) ∨
      ¬ s.store.Answers selection ∧ ∃ detail, ∀ offset,
        s.store.select { selection with offset } = .error (.persistence detail)) ∧
    (∀ r, s.store.ReadsPlainly selection r → s.store.finds selection r = selection.holds r) ∧
    ∀ records others : List Retirement, records.Perm others → (records.map (·.agreementId)).Nodup →
      (s.run (insertions records)).store.pages selection =
        (s.run (insertions others)).store.pages selection :=
  ⟨Store.exists_paginates reachable.recorded.sound selection few, fun _ => Store.finds_eq_holds,
    fun _ _ perm distinct => by rw [store_run_insertions_of_perm reachable perm distinct]⟩

theorem paged_once_tied :
    let a : Retirement := .create "a-1" "MANUAL" "alice" .epoch
    let b : Retirement := .create "a-2" "EXPIRED" "bob" .epoch
    let c : Retirement := .create "b-1" "MANUAL" "alice" .epoch
    let start := setUp (.database .fresh) .epoch
    let s := start.run (insertions [b, c, a])
    let selection : Selection := ⟨[.textLike .agreementId "a-%"], 0, 1, .retiredAt, .descending, by decide⟩
    s.Reachable ∧ (∃ pages, s.store.Paginates selection pages ∧ a ∈ pages.flatten ∧ b ∈ pages.flatten ∧
        c ∉ pages.flatten) ∧
      s.store.pages selection = (start.run (insertions [a, b, c])).store.pages selection := by
  intro a b c start s selection
  have initial : start.Reachable := (isInitial_setUp (.inr rfl) .epoch).reachable
  have reachable : s.Reachable := initial.run _
  obtain ⟨all, same, -⟩ := paged_once reachable selection (by decide)
  obtain ⟨-, -, anyhow⟩ := paged_once initial selection (by decide)
  refine ⟨reachable, ?_, anyhow [b, c, a] [a, b, c] (by decide) (by decide)⟩
  have plain (r : Retirement) (ordinary : '\x00' ∉ r.agreementId.toList ∧
      '\uFFFE' ∉ r.agreementId.toList ∧ '\uFFFF' ∉ r.agreementId.toList) :
      s.store.ReadsPlainly selection r := by
    intro database field pattern asked text compared
    cases List.mem_singleton.mp asked
    rcases List.mem_pair.mp compared with rfl | rfl
    · exact ordinary
    · decide
  rcases all with ⟨pages, paginates⟩ | ⟨unanswered, -⟩
  · refine ⟨pages, paginates, ?_, ?_, fun shown => ?_⟩
    · refine (paginates.exact a).mpr ⟨by unfold Store.Holds; decide, ?_⟩
      rw [same a (plain a (by decide))]
      decide
    · refine (paginates.exact b).mpr ⟨by unfold Store.Holds; decide, ?_⟩
      rw [same b (plain b (by decide))]
      decide
    · have found := ((paginates.exact c).mp shown).2
      rw [same c (plain c (by decide))] at found
      exact absurd found (by decide)
  · exact absurd ⟨by decide, by unfold Select.IsShort; decide⟩ unanswered

theorem not_all_paged :
    let broken : Retirement := .create "a\x00b" "MANUAL" "alice" .epoch
    let whole : Retirement := .create "a-1" "MANUAL" "alice" .epoch
    let s := (setUp (.database .fresh) .epoch).run (insertions [broken, whole])
    let special : Selection := ⟨[.textLike .agreementId "a_b"], 0, 50, .retiredAt, .ascending, by decide⟩
    let long : Selection := ⟨[.textEq .agreementId "a-1",
      .textLike .reason (.ofList (List.replicate 50001 '%'))], 0, 50, .retiredAt, .ascending, by decide⟩
    let deep : Selection :=
      ⟨List.replicate 1000 (.atGt (-1)), 0, 50, .retiredAt, .ascending, by decide⟩
    s.Reachable ∧ (s.store.Holds broken ∧ special.holds broken = true ∧ s.store.pages special = .ok []) ∧
      (s.store.Holds whole ∧ long.holds whole = true ∧
        s.store.pages long = .error Select.patternTooComplex) ∧
      deep.holds whole = true ∧ s.store.pages deep = .error Select.tooDeep := by
  intro broken whole s special long deep
  have reachable : s.Reachable := (isInitial_setUp (.inr rfl) .epoch).reachable.run _
  have first (selection : Selection) (start : selection.offset = 0) {reply : Except Failure (List Retirement)}
      (answered : s.store.select selection = reply) :
      s.store.pages selection = reply >>= fun page => if page.isEmpty then pure [] else do
        return page :: (← s.store.pagesFrom selection (0 + selection.limit.toNat)) := by
    have same : { selection with offset := .ofNat 0 } = selection := by
      cases selection
      cases start
      rfl
    rw [Store.pages, Store.pagesFrom, if_pos (by decide), same, answered]
  have held : s.store.record? "a-1" = some whole := by decide
  have longer : Clause.maxPatternSize < (String.ofList (List.replicate 50001 '%')).utf8ByteSize := by
    rw [← Text.Utf8.length_encode]
    refine Nat.lt_of_lt_of_le ?_ (Text.Utf8.length_le_length_encode _)
    rw [String.length_ofList, List.length_replicate]
    decide
  refine ⟨reachable, ⟨by unfold Store.Holds; decide, by decide, ?_⟩, ⟨held, ?_, ?_⟩, ?_, ?_⟩
  · exact first special rfl (show _ = Except.ok [] by decide +kernel)
  · have liked := Like.isMatch_runs 50000 "MANUAL"
    exact List.all_eq_true.mpr (List.forall_mem_cons.mpr ⟨rfl, List.forall_mem_singleton.mpr liked⟩)
  · obtain ⟨db, store⟩ : ∃ db, s.store = .database db := ⟨_, rfl⟩
    have sound := reachable.recorded.sound
    rw [store] at sound held
    refine first long rfl (?_ : s.store.select long = .error Select.patternTooComplex)
    rw [store]
    exact Database.select_of_long sound rfl rfl (by rw [held]; rfl) longer
  · exact List.all_replicate
  · exact first deep rfl (show _ = Except.error Select.tooDeep by decide +kernel)

end System

end RetirementLedger

import Mathlib.Data.List.Nodup
import RetirementLedger.Query.Selection

namespace RetirementLedger.Selection

variable {field : SortField} {a b c : Retirement}

theorem precedes_iff : precedes field a b = true ↔
    match field with
    | .retiredAt => a.retiredAtMillis < b.retiredAtMillis ∨
        a.retiredAtMillis = b.retiredAtMillis ∧ a.agreementId ≤ b.agreementId
    | .agreementId => a.agreementId ≤ b.agreementId := by
  cases field <;> simp [precedes]

theorem precedes_trans (first : precedes field a b = true) (second : precedes field b c = true) :
    precedes field a c = true := by
  rw [precedes_iff] at first second ⊢
  cases field with
  | agreementId => exact String.le_trans first second
  | retiredAt =>
      rcases first with before | ⟨same, le⟩
      · rcases second with before' | ⟨same', -⟩
        · exact .inl (by omega)
        · exact .inl (by omega)
      · rcases second with before' | ⟨same', le'⟩
        · exact .inl (by omega)
        · exact .inr ⟨same.trans same', String.le_trans le le'⟩

theorem precedes_total (field : SortField) (a b : Retirement) :
    precedes field a b = true ∨ precedes field b a = true := by
  simp only [precedes_iff]
  have ids := String.le_total a.agreementId b.agreementId
  cases field with
  | agreementId => exact ids
  | retiredAt =>
      rcases Int.lt_trichotomy a.retiredAtMillis b.retiredAtMillis with before | same | after
      · exact .inl (.inl before)
      · exact ids.imp (fun le => .inr ⟨same, le⟩) (fun le => .inr ⟨same.symm, le⟩)
      · exact .inr (.inl after)

theorem agreementId_eq_of_precedes (first : precedes field a b = true)
    (second : precedes field b a = true) : a.agreementId = b.agreementId := by
  rw [precedes_iff] at first second
  cases field with
  | agreementId => exact String.le_antisymm first second
  | retiredAt =>
      rcases first with before | ⟨same, le⟩
      · rcases second with after | ⟨same, -⟩
        · exact absurd after (Int.lt_asymm before)
        · exact absurd same.symm (Int.ne_of_lt before)
      · rcases second with after | ⟨-, le'⟩
        · exact absurd same.symm (Int.ne_of_lt after)
        · exact String.le_antisymm le le'

def IsDistinct (records : List Retirement) : Prop :=
  ∀ r ∈ records, ∀ s ∈ records, r.agreementId = s.agreementId → r = s

theorem isDistinct_of_ascending {records : List Retirement}
    (ascending : records.Pairwise fun a b => a.agreementId < b.agreementId) :
    IsDistinct records := by
  have nodup : (records.map (·.agreementId)).Nodup := by
    refine List.pairwise_map.mpr (ascending.imp fun {a b} less same => ?_)
    rw [same] at less
    exact String.lt_irrefl _ less
  exact fun r member s member' => List.inj_on_of_nodup_map nodup member member'

theorem IsDistinct.filter {records : List Retirement} (distinct : IsDistinct records)
    (keep : Retirement → Bool) : IsDistinct (records.filter keep) := fun r member s member' =>
  distinct r (List.mem_filter.mp member).1 s (List.mem_filter.mp member').1

theorem pairwise_mergeSort (field : SortField) (records : List Retirement) :
    (records.mergeSort (precedes field)).Pairwise fun a b => precedes field a b = true := by
  refine List.pairwise_mergeSort ?_ ?_ records
  · intro a b c
    exact precedes_trans
  · intro a b
    simpa using precedes_total field a b

theorem pairwise_mergeSort_downwards (field : SortField) (records : List Retirement) :
    (records.mergeSort fun a b => precedes field b a).Pairwise fun a b =>
      precedes field b a = true := by
  refine List.pairwise_mergeSort ?_ ?_ records
  · intro a b c first second
    exact precedes_trans second first
  · intro a b
    simpa using precedes_total field b a

theorem reverse_mergeSort {records : List Retirement} (distinct : IsDistinct records) :
    (records.mergeSort (precedes field)).reverse =
      records.mergeSort fun a b => precedes field b a := by
  have upwards := List.mergeSort_perm records (precedes field)
  have downwards := List.mergeSort_perm records fun a b => precedes field b a
  have same := ((List.reverse_perm _).trans upwards).trans downwards.symm
  -- Two sorted lists of the same members are one, since no two of these come before each other.
  refine same.eq_of_pairwise ?_ (List.pairwise_reverse.mpr (pairwise_mergeSort field records))
    (pairwise_mergeSort_downwards field records)
  intro a b left right first second
  have known := upwards.mem_iff.mp (List.mem_reverse.mp left)
  exact distinct a known b (downwards.mem_iff.mp right) (agreementId_eq_of_precedes second first)

theorem perm_sort (s : Selection) (records : List Retirement) : (s.sort records).Perm records := by
  have sorted := List.mergeSort_perm records (precedes s.sortField)
  unfold sort
  cases s.sortOrder with
  | ascending => exact sorted
  | descending => exact (List.reverse_perm _).trans sorted

theorem mem_of_mem_page {s : Selection} {records : List Retirement} {r : Retirement}
    (shown : r ∈ s.page records) : r ∈ records := List.mem_of_mem_drop (List.mem_of_mem_take shown)

theorem mem_of_mem_apply {s : Selection} {records : List Retirement} {r : Retirement}
    (found : r ∈ s.apply records) : r ∈ records :=
  (List.mem_filter.mp ((s.perm_sort _).mem_iff.mp (mem_of_mem_page found))).1

end RetirementLedger.Selection

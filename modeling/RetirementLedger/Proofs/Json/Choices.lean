import RetirementLedger.Proofs.Json.Fields
import RetirementLedger.Proofs.Text.Numeral

namespace RetirementLedger.Json

theorem leadingDigits_eq {n : Nat} (bound : n < 0x10000000000000000) : leadingDigits n = (n, 0) := by
  have digits : (toString n).length ≤ 20 := by
    have few : (Text.natDigits n).length ≤ 20 :=
      Text.length_natDigits_le (by decide) (Nat.lt_trans bound (by decide))
    have spelled : toString n = String.ofList (Text.natDigits n) := rfl
    rw [spelled]
    simpa using few
  unfold leadingDigits
  rw [Nat.sub_eq_zero_of_le digits]
  simp [bound]

theorem roundBinary_le (n : Nat) : roundBinary n ≤ n + Nat.pow 2 (n.log2 - 52) := by
  have below : n / Nat.pow 2 (n.log2 - 52) * Nat.pow 2 (n.log2 - 52) ≤ n := Nat.div_mul_le_self _ _
  unfold roundBinary
  dsimp only
  split
  · rw [Nat.succ_mul]
    omega
  · omega

theorem isFinite_of_lt {n : Nat} (bound : n < Nat.pow 2 64) : isFinite n 0 = true := by
  by_cases zero : n = 0
  · rw [zero]
    decide
  · have places : n.log2 - 52 ≤ 11 := by
      have short := (Nat.log2_lt zero).mpr bound
      omega
    have unit : Nat.pow 2 (n.log2 - 52) ≤ Nat.pow 2 11 := Nat.pow_le_pow_right (by decide) places
    have one : roundBinary (Nat.pow 10 0) = 1 := by decide
    have limit : Nat.pow 2 64 + Nat.pow 2 11 < magnitudeLimit := by decide +kernel
    have small : roundBinary n < magnitudeLimit := by
      have rounded := roundBinary_le n
      omega
    have product : decide (roundBinary n * roundBinary (Nat.pow 10 0) < magnitudeLimit) = true := by
      rw [one, Nat.mul_one]
      exact decide_eq_true small
    rw [isFinite, leadingDigits_eq bound]
    exact (Bool.or_eq_true _ _).mpr (.inr ((Bool.and_eq_true _ _).mpr ⟨rfl, product⟩))

@[simp] theorem text?_text (s : String) : text? (text s) = some s := rfl

@[simp] theorem bool?_bool (b : Bool) : bool? (.bool b) = some b := rfl

theorem guard_eq {b : Bool} (holds : b = true) : (guard b : Option Unit) = some () := if_pos holds

theorem isHeld_text (depth : Nat) (s : String) : isHeld depth (text s) = true := rfl

theorem isHeld_nat (depth : Nat) {n : Nat} (bound : n < Nat.pow 2 64) :
    isHeld depth (nat n) = true := isFinite_of_lt bound

theorem ofFields_eq (fields : List (String × Json)) :
    ofFields fields = .object (fields.map fun field => (some field.1, field.2)) := rfl

theorem isHeld_ofFields {depth : Nat} {fields : List (String × Json)} (shallow : depth < depthLimit)
    (each : ∀ field ∈ fields, isHeld (depth + 1) field.2 = true) :
    isHeld depth (ofFields fields) = true := by
  have members : membersHeld (depth + 1) (fields.map fun field => (some field.1, field.2)) = true := by
    induction fields with
    | nil => rfl
    | cons field fields ih =>
        obtain ⟨first, others⟩ := List.forall_mem_cons.mp each
        rw [List.map_cons, membersHeld, ih others, first]
        rfl
  rw [ofFields_eq, isHeld, members]
  simpa using shallow

theorem tagged?_ofFields {tag : String} (value : Json) {fields : List (String × Json)}
    (fresh : tag ∉ fields.map (·.1)) :
    tagged? tag (ofFields ((tag, value) :: fields)) = some (value, ofFields fields) := by
  have others : ∀ m ∈ fields.map (fun field => (some field.1, field.2)), m.1 ≠ some tag := by
    intro m member same
    obtain ⟨field, here, rfl⟩ := List.mem_map.mp member
    cases same
    exact fresh (List.mem_map.mpr ⟨field, here, rfl⟩)
  have noTag : (fields.map fun field => (some field.1, field.2)).filter (·.1 == some tag) = [] :=
    List.filter_eq_nil_iff.mpr fun m member => by simpa using others m member
  have rest : (fields.map fun field => (some field.1, field.2)).filter (·.1 != some tag) =
      fields.map fun field => (some field.1, field.2) :=
    List.filter_eq_self.mpr fun m member => by simpa using others m member
  simp only [ofFields_eq, List.map_cons, tagged?, takeTag, List.filter_cons, beq_self_eq_true,
    if_true, noTag, bne_self_eq_false, Bool.false_eq_true, if_false, rest, Option.map_some]

theorem nullable?_of_ne_null {α : Type} {read : Json → Option α} {j : Json} (filled : j ≠ .null) :
    nullable? read j = (read j).map some := by
  cases j <;> first | rfl | exact absurd rfl filled

theorem nullable?_ofOption {α : Type} {read : Json → Option α} {write : α → Json} {o : Option α}
    (each : ∀ a ∈ o, read (write a) = some a) (filled : ∀ a, write a ≠ .null) :
    nullable? read (ofOption write o) = some o := by
  cases o with
  | none => rfl
  | some a => rw [ofOption, nullable?_of_ne_null (filled a), each a rfl, Option.map_some]

theorem nullable?_text (o : Option String) : nullable? text? (ofOption text o) = some o :=
  nullable?_ofOption (fun _ _ => rfl) fun _ same => by cases same

end RetirementLedger.Json

import RetirementLedger.Text.Numeral

namespace RetirementLedger.Text

theorem digitsValue_eq (cs : List Char) : digitsValue cs = Nat.ofDigitChars 10 cs 0 := by
  rw [Nat.ofDigitChars_eq_foldl, digitsValue]
  simp only [digitValue, Nat.mul_comm]
  rfl

theorem digitsValue_append (cs ds : List Char) :
    digitsValue (cs ++ ds) = digitsValue cs * Nat.pow 10 ds.length + digitsValue ds := by
  rw [digitsValue_eq, Nat.ofDigitChars_append, Nat.ofDigitChars_eq_ofDigitChars_zero, digitsValue_eq,
    digitsValue_eq, Nat.mul_comm]
  rfl

theorem digitsValue_cons (c : Char) (cs : List Char) :
    digitsValue (c :: cs) = digitValue c * Nat.pow 10 cs.length + digitsValue cs := by
  have value := digitsValue_append [c] cs
  simpa [digitsValue] using value

theorem digitsValue_zeros (n : Nat) : digitsValue (List.replicate n '0') = 0 := by
  rw [digitsValue_eq, Nat.ofDigitChars_replicate_zero, Nat.mul_zero]

theorem digitsValue_natDigits (n : Nat) : digitsValue (natDigits n) = n := by
  rw [digitsValue_eq, natDigits, Nat.ofDigitChars_toDigits (by decide) (by decide)]

theorem isDigit_of_mem_natDigits {n : Nat} {c : Char} (member : c ∈ natDigits n) :
    isDigit c = true := by
  have digit := Nat.isDigit_of_mem_toDigits (by decide) (by decide) member
  simpa [Char.isDigit, isDigit, UInt32.le_iff_toNat_le] using digit

theorem natDigits_ne_nil (n : Nat) : natDigits n ≠ [] := Nat.toDigits_ne_nil

theorem length_natDigits_le {n width : Nat} (positive : 0 < width) (bound : n < Nat.pow 10 width) :
    (natDigits n).length ≤ width :=
  (Nat.length_toDigits_le_iff (by decide) positive).mpr bound

theorem digitValue_le {c : Char} (digit : isDigit c = true) : digitValue c ≤ 9 := by
  simp only [isDigit, Bool.and_eq_true, decide_eq_true_eq] at digit
  simp only [digitValue]
  omega

theorem digitsValue_lt {cs : List Char} (digits : ∀ c ∈ cs, isDigit c = true) :
    digitsValue cs < Nat.pow 10 cs.length := by
  induction cs with
  | nil => decide
  | cons c cs ih =>
      obtain ⟨first, others⟩ := List.forall_mem_cons.mp digits
      have small := digitValue_le first
      have rest := ih others
      rw [digitsValue_cons, List.length_cons]
      change _ < Nat.pow 10 cs.length * 10
      generalize Nat.pow 10 cs.length = p at rest
      have most : digitValue c * p ≤ 9 * p := Nat.mul_le_mul_right p small
      omega

theorem eq_of_digitValue_eq {c d : Char} (first : isDigit c = true) (second : isDigit d = true)
    (same : digitValue c = digitValue d) : c = d := by
  simp only [isDigit, Bool.and_eq_true, decide_eq_true_eq] at first second
  simp only [digitValue] at same
  exact Char.ext (UInt32.toNat_inj.mp (show c.toNat = d.toNat by omega))

theorem eq_of_digitsValue_eq {cs ds : List Char} (first : ∀ c ∈ cs, isDigit c = true)
    (second : ∀ d ∈ ds, isDigit d = true) (length : cs.length = ds.length)
    (value : digitsValue cs = digitsValue ds) : cs = ds := by
  induction cs generalizing ds with
  | nil => exact (List.length_eq_zero_iff.mp length.symm).symm
  | cons c cs ih =>
      cases ds with
      | nil => cases length
      | cons d ds =>
          obtain ⟨c', cs'⟩ := List.forall_mem_cons.mp first
          obtain ⟨d', ds'⟩ := List.forall_mem_cons.mp second
          have length' : cs.length = ds.length := Nat.succ.inj length
          have low := digitsValue_lt cs'
          have low' := digitsValue_lt ds'
          rw [digitsValue_cons, digitsValue_cons, length'] at value
          rw [length'] at low
          generalize Nat.pow 10 ds.length = p at value low low'
          have leading : digitValue c = digitValue d := by
            have positive : 0 < p := by omega
            have both := congrArg (· / p) value
            simpa [Nat.mul_comm _ p, Nat.mul_add_div positive, Nat.div_eq_of_lt low,
              Nat.div_eq_of_lt low'] using both
          rw [leading] at value
          rw [eq_of_digitValue_eq c' d' leading, ih cs' ds' length' (Nat.add_left_cancel value)]

theorem isDigit_of_mem_padded {width n : Nat} {c : Char} (member : c ∈ padded width n) :
    isDigit c = true := by
  rcases List.mem_append.mp member with zero | digit
  · rw [(List.mem_replicate.mp zero).2]
    rfl
  · exact isDigit_of_mem_natDigits digit

theorem digitsValue_padded (width n : Nat) : digitsValue (padded width n) = n := by
  rw [padded, digitsValue_append, digitsValue_zeros, digitsValue_natDigits, Nat.zero_mul, Nat.zero_add]

theorem length_padded {width n : Nat} (positive : 0 < width) (bound : n < Nat.pow 10 width) :
    (padded width n).length = width := by
  have short := length_natDigits_le positive bound
  simp only [padded, List.length_append, List.length_replicate]
  omega

theorem padded_digitsValue {width : Nat} {cs : List Char} (positive : 0 < width)
    (length : cs.length = width) (digits : ∀ c ∈ cs, isDigit c = true) :
    padded width (digitsValue cs) = cs := by
  have bound : digitsValue cs < Nat.pow 10 width := length ▸ digitsValue_lt digits
  exact eq_of_digitsValue_eq (fun _ member => isDigit_of_mem_padded member) digits
    ((length_padded positive bound).trans length.symm) (digitsValue_padded _ _)

end RetirementLedger.Text

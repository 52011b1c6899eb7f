import RetirementLedger.Proofs.Like

namespace RetirementLedger.Like

/-- The characters of a pattern take their shares of a value, in order and with nothing left over. -/
inductive Shares : List Char → List Char → Prop
  | nil : Shares [] []
  | run {pattern value : List Char} (share : List Char) (rest : Shares pattern value) :
      Shares ('%' :: pattern) (share ++ value)
  | one {pattern value : List Char} (c : Char) (rest : Shares pattern value) :
      Shares ('_' :: pattern) (c :: value)
  | escaped {pattern value : List Char} (c : Char) (rest : Shares pattern value) :
      Shares ('\\' :: c :: pattern) (c :: value)
  | plain {pattern value : List Char} (c : Char) (ordinary : c ∉ ['%', '_', '\\'])
      (rest : Shares pattern value) : Shares (c :: pattern) (c :: value)

def trailing (pattern : List Char) : Nat :=
  (pattern.reverse.takeWhile (· == '\\')).length

/-- As backslashes pair up from the left, the last one has no pair when there is an odd number. -/
def EndsUnpaired (pattern : List Char) : Prop :=
  trailing pattern % 2 = 1

instance (pattern : List Char) : Decidable (EndsUnpaired pattern) :=
  inferInstanceAs (Decidable (_ = _))

variable {pattern : List Char} {value : List Char} {tokens : List Token} {c : Char}

theorem trailing_cons_of_ne (ordinary : c ≠ '\\') : trailing (c :: pattern) = trailing pattern := by
  unfold trailing
  rw [List.reverse_cons, List.takeWhile_append]
  split
  · next all => simp [ordinary, all]
  · rfl

theorem trailing_escaped :
    trailing ('\\' :: c :: pattern) % 2 = trailing pattern % 2 := by
  unfold trailing
  rw [List.reverse_cons, List.reverse_cons, List.append_assoc, List.takeWhile_append]
  split
  · next all =>
    by_cases mark : c = '\\'
    · simp [mark, all]
    · simp [mark, all]
  · rfl

theorem not_special (escaped : ∀ d rest, c = '\\' → pattern = d :: rest → False)
    (last : c = '\\' → pattern = [] → False) (run : c = '%' → False) (one : c = '_' → False) :
    c ∉ ['%', '_', '\\'] := by
  have mark : c ≠ '\\' := by
    rintro rfl
    cases pattern with
    | nil => exact last rfl rfl
    | cons d rest => exact escaped d rest rfl rfl
  simpa using ⟨run, one, mark⟩

theorem tokens?_plain (ordinary : c ∉ ['%', '_', '\\']) :
    tokens? (c :: pattern) = (tokens? pattern).map (.literal c :: ·) := by
  simp only [List.mem_cons, List.not_mem_nil, or_false, not_or] at ordinary
  obtain ⟨run, one, mark⟩ := ordinary
  rw [tokens?]
  · exact fun _ _ same => absurd same mark
  · exact fun same => absurd same mark
  · exact run
  · exact one

theorem endsUnpaired_iff : EndsUnpaired pattern ↔ tokens? pattern = none := by
  unfold EndsUnpaired
  fun_induction tokens? pattern with
  | case1 => simp [trailing]
  | case2 c rest ih => rw [trailing_escaped, ih, Option.map_eq_none_iff]
  | case3 => simp [trailing]
  | case4 rest ih => rw [trailing_cons_of_ne (by decide), ih, Option.map_eq_none_iff]
  | case5 rest ih => rw [trailing_cons_of_ne (by decide), ih, Option.map_eq_none_iff]
  | case6 c rest escaped last run one ih =>
      have ordinary := not_special escaped last run one
      rw [trailing_cons_of_ne (by rintro rfl; simp at ordinary), ih, Option.map_eq_none_iff]

theorem Shares.parsed (shares : Shares pattern value) :
    ∃ tokens, tokens? pattern = some tokens ∧ Matches tokens value := by
  induction shares with
  | nil => exact ⟨[], rfl, .nil⟩
  | run share rest ih =>
      obtain ⟨tokens, known, shared⟩ := ih
      exact ⟨_, by rw [tokens?, known]; rfl, .anyRun share shared⟩
  | one c rest ih =>
      obtain ⟨tokens, known, shared⟩ := ih
      exact ⟨_, by rw [tokens?, known]; rfl, .anyOne c shared⟩
  | escaped c rest ih =>
      obtain ⟨tokens, known, shared⟩ := ih
      exact ⟨_, by rw [tokens?, known]; rfl, .literal c shared⟩
  | plain c ordinary rest ih =>
      obtain ⟨tokens, known, shared⟩ := ih
      exact ⟨_, by rw [tokens?_plain ordinary, known]; rfl, .literal c shared⟩

theorem Matches.shares (shared : Matches tokens value) (parsed : tokens? pattern = some tokens) :
    Shares pattern value := by
  fun_induction tokens? pattern generalizing tokens value with
  | case1 =>
      cases parsed
      cases shared
      exact .nil
  | case2 c rest ih =>
      obtain ⟨later, known, rfl⟩ := Option.map_eq_some_iff.mp parsed
      cases shared with
      | literal c shared => exact .escaped c (ih shared known)
  | case3 => cases parsed
  | case4 rest ih =>
      obtain ⟨later, known, rfl⟩ := Option.map_eq_some_iff.mp parsed
      cases shared with
      | anyRun share shared => exact .run share (ih shared known)
  | case5 rest ih =>
      obtain ⟨later, known, rfl⟩ := Option.map_eq_some_iff.mp parsed
      cases shared with
      | anyOne c shared => exact .one c (ih shared known)
  | case6 c rest escaped last run one ih =>
      obtain ⟨later, known, rfl⟩ := Option.map_eq_some_iff.mp parsed
      cases shared with
      | literal c shared => exact .plain c (not_special escaped last run one) (ih shared known)

theorem shares_iff {pattern value : String} :
    Shares pattern.toList value.toList ↔ isMatch pattern value = true := by
  rw [isMatch_iff]
  constructor
  · exact Shares.parsed
  · rintro ⟨tokens, known, shared⟩
    exact shared.shares known

/-- The matcher is LIKE: it finds nothing for a pattern that ends in an unpaired backslash, and otherwise
its scan comes to an answer within a bounded number of turns, never looking beyond an end, and the answer
tells whether the pattern can share the value out. -/
theorem isMatch_exact (pattern value : String) :
    (EndsUnpaired pattern.toList → isMatch pattern value = false) ∧
      (¬ EndsUnpaired pattern.toList → ∃ tokens, tokens? pattern.toList = some tokens ∧
        ∃ turns ≤ (value.length + 2) * (tokens.length + 1),
          Answers tokens.toArray value.toList.toArray {} turns (isMatch pattern value)) ∧
      (isMatch pattern value = true ↔ Shares pattern.toList value.toList) := by
  refine ⟨fun unpaired => ?_, fun paired => ?_, shares_iff.symm⟩
  · rw [isMatch, matchesChars, endsUnpaired_iff.mp unpaired]
  · cases known : tokens? pattern.toList with
    | none => exact absurd (endsUnpaired_iff.mpr known) paired
    | some tokens =>
      have answers := matchesTokens_answers tokens value.toList
      rw [String.length_toList] at answers
      rw [isMatch, matchesChars, known]
      exact ⟨tokens, rfl, answers⟩

theorem isMatch_exact_going_back :
    Shares "%a\\%_b".toList "aa%a%cb".toList ∧
      (∃ tokens, tokens? "%a\\%_b".toList = some tokens ∧
        ∃ turns ≤ ("aa%a%cb".length + 2) * (tokens.length + 1),
          Answers tokens.toArray "aa%a%cb".toList.toArray {} turns (isMatch "%a\\%_b" "aa%a%cb")) ∧
      isMatch "%a\\" "a\\" = false :=
  ⟨(isMatch_exact "%a\\%_b" "aa%a%cb").2.2.mp (by decide),
    (isMatch_exact "%a\\%_b" "aa%a%cb").2.1 (by decide),
    (isMatch_exact "%a\\" "a\\").1 (by decide)⟩

end RetirementLedger.Like

import RetirementLedger.Text.Blank

namespace RetirementLedger.Text

theorem trimStart_eq {cs : List Char} (first : ∀ c ∈ cs.head?, isBlank c = false) :
    trimStart cs = cs := by
  cases cs with
  | nil => rfl
  | cons c cs => exact List.dropWhile_cons_of_neg (by simp [first c rfl])

theorem trimEnd_eq {cs : List Char} (last : ∀ c ∈ cs.getLast?, isBlank c = false) :
    trimEnd cs = cs := by
  have turned : trimStart cs.reverse = cs.reverse :=
    trimStart_eq fun c member => last c (by rwa [← List.head?_reverse])
  change (trimStart cs.reverse).reverse = cs
  rw [turned, List.reverse_reverse]

theorem trimChars_eq {cs : List Char} (first : ∀ c ∈ cs.head?, isBlank c = false)
    (last : ∀ c ∈ cs.getLast?, isBlank c = false) : trimChars cs = cs := by
  rw [trimChars, trimStart_eq first, trimEnd_eq last]

theorem trimStart_of_blank {cs : List Char} (blank : ∀ c ∈ cs, isBlank c = true) :
    trimStart cs = [] := by
  have all : trimStart (cs ++ []) = trimStart [] := List.dropWhile_append_of_pos blank
  rwa [List.append_nil] at all

theorem trimChars_surrounded {before after : List Char} (blank : ∀ c ∈ before, isBlank c = true)
    (blank' : ∀ c ∈ after, isBlank c = true) (cs : List Char) :
    trimChars (before ++ (cs ++ after)) = trimChars cs := by
  have front : trimStart (before ++ (cs ++ after)) = trimStart (cs ++ after) :=
    List.dropWhile_append_of_pos blank
  have back (cs : List Char) : trimEnd (cs ++ after) = trimEnd cs := by
    have turned : ∀ c ∈ after.reverse, isBlank c = true := fun c member =>
      blank' c (List.mem_reverse.mp member)
    unfold trimEnd
    rw [List.reverse_append, List.dropWhile_append_of_pos turned]
  have start : trimStart (cs ++ after) =
      if (trimStart cs).isEmpty then trimStart after else trimStart cs ++ after :=
    List.dropWhile_append
  rw [trimChars, front, start, trimChars]
  split
  · next empty => rw [trimStart_of_blank blank', List.isEmpty_iff.mp empty]
  · exact back _

/-- A text is another one with white space around it, and there is no white space left at the ends of that. -/
structure IsTrimmed (text core : String) : Prop where
  around : ∃ before after, isBlankText before = true ∧ isBlankText after = true ∧
    text = before ++ core ++ after
  first : ∀ c ∈ core.toList.head?, isBlank c = false
  last : ∀ c ∈ core.toList.getLast?, isBlank c = false

theorem isBlankText_iff {s : String} : isBlankText s = true ↔ ∀ c ∈ s.toList, isBlank c = true := by
  rw [isBlankText, List.all_eq_true]

theorem exists_trimStart (cs : List Char) :
    ∃ before, (∀ c ∈ before, isBlank c = true) ∧ cs = before ++ trimStart cs ∧
      ∀ c ∈ (trimStart cs).head?, isBlank c = false := by
  refine ⟨cs.takeWhile isBlank, fun c member => ?_, List.takeWhile_append_dropWhile.symm,
    fun c first => ?_⟩
  · exact List.all_eq_true.mp List.all_takeWhile c member
  · have shown := List.head?_dropWhile_not isBlank cs
    unfold trimStart at first
    rw [first] at shown
    exact shown

theorem exists_trimEnd (cs : List Char) :
    ∃ after, (∀ c ∈ after, isBlank c = true) ∧ cs = trimEnd cs ++ after ∧
      ∀ c ∈ (trimEnd cs).getLast?, isBlank c = false := by
  obtain ⟨before, blank, split, shown⟩ := exists_trimStart cs.reverse
  refine ⟨before.reverse, fun c member => blank c (List.mem_reverse.mp member), ?_, fun c last => ?_⟩
  · have turned := congrArg List.reverse split
    rwa [List.reverse_reverse, List.reverse_append] at turned
  · refine shown c ?_
    have last : c ∈ (trimStart cs.reverse).reverse.getLast? := last
    rwa [List.getLast?_reverse] at last

theorem trim_eq_iff {text core : String} : trim text = core ↔ IsTrimmed text core := by
  constructor
  · rintro rfl
    obtain ⟨before, blank, split, first⟩ := exists_trimStart text.toList
    obtain ⟨after, blank', split', last⟩ := exists_trimEnd (trimStart text.toList)
    have core : (trim text).toList = trimEnd (trimStart text.toList) := String.toList_ofList
    refine ⟨⟨String.ofList before, String.ofList after, ?_, ?_, ?_⟩, fun c member => ?_, ?_⟩
    · rwa [isBlankText_iff, String.toList_ofList]
    · rwa [isBlankText_iff, String.toList_ofList]
    · rw [← String.toList_inj, String.toList_append, String.toList_append, String.toList_ofList,
        String.toList_ofList, core, List.append_assoc, ← split', ← split]
    · refine first c ?_
      rw [split', List.head?_append]
      rw [core] at member
      exact Option.mem_def.mpr (by rw [Option.mem_def.mp member, Option.some_or])
    · rwa [core]
  · rintro ⟨⟨before, after, blank, blank', rfl⟩, first, last⟩
    have shown := trimChars_surrounded (isBlankText_iff.mp blank) (isBlankText_iff.mp blank') core.toList
    rw [trim, String.toList_append, String.toList_append, List.append_assoc, shown, trimChars_eq first last,
      String.ofList_toList]

end RetirementLedger.Text

import RetirementLedger.Proofs.Instant.Stamp

namespace RetirementLedger

namespace Text

theorem natural?_eq_some_iff {cs : List Char} {n : Nat} :
    natural? cs = some n ↔ cs ≠ [] ∧ (∀ c ∈ cs, isDigit c = true) ∧ digitsValue cs = n := by
  unfold natural?
  have numeral : (!cs.isEmpty && cs.all isDigit) = true ↔ cs ≠ [] ∧ ∀ c ∈ cs, isDigit c = true := by
    simp
  split
  · next digits =>
      obtain ⟨given, digits⟩ := numeral.mp digits
      rw [Option.some.injEq]
      exact ⟨fun value => ⟨given, digits, value⟩, fun all => all.2.2⟩
  · next other =>
      refine iff_of_false (by simp) ?_
      rintro ⟨given, digits, -⟩
      exact other (numeral.mpr ⟨given, digits⟩)

end Text

namespace Instant
open Text Calendar

theorem of?_eq_some_iff {nanos offset : Int} {t : Instant} :
    of? nanos offset = some t ↔ t.nanos = nanos ∧ t.offset = offset := by
  refine ⟨of?_eq_some, ?_⟩
  rintro ⟨rfl, rfl⟩
  exact t.of?_self

structure Count where
  sign : Option Char
  digits : List Char

namespace Count

def chars (n : Count) : List Char := n.sign.toList ++ n.digits

structure IsReal (n : Count) : Prop where
  sign : ∀ c ∈ n.sign, c = '+' ∨ c = '-'
  given : n.digits ≠ []
  digits : ∀ c ∈ n.digits, isDigit c = true

def value (n : Count) : Int :=
  if n.sign = some '-' then -(digitsValue n.digits : Int) else digitsValue n.digits

structure Denotes (n : Count) (t : Instant) : Prop where
  nanos : t.nanos = n.value * secondNanos
  offset : t.offset = 0

variable {n : Count} {t : Instant}

theorem signed?_eq_some_iff {cs : List Char} {value : Int} :
    signed? cs = some value ↔ ∃ n : Count, n.IsReal ∧ n.chars = cs ∧ n.value = value := by
  constructor
  · intro read
    unfold signed? at read
    split at read
    all_goals
      simp only [Option.map_eq_some_iff, Option.bind_eq_bind, Option.bind_eq_some_iff, Option.pure_def,
        Option.some.injEq, natural?_eq_some_iff] at read
    · obtain ⟨_, ⟨given, digits, rfl⟩, rfl⟩ := read
      exact ⟨⟨some '+', _⟩, ⟨by simp, given, digits⟩, rfl, rfl⟩
    · obtain ⟨_, ⟨_, ⟨given, digits, rfl⟩, rfl⟩, rfl⟩ := read
      exact ⟨⟨some '-', _⟩, ⟨by simp, given, digits⟩, rfl, rfl⟩
    · obtain ⟨_, ⟨given, digits, rfl⟩, rfl⟩ := read
      exact ⟨⟨none, _⟩, ⟨by simp, given, digits⟩, rfl, rfl⟩
  · rintro ⟨⟨sign, ds⟩, ⟨signs, given, digits⟩, rfl, rfl⟩
    have natural : natural? ds = some (digitsValue ds) := natural?_eq_some_iff.mpr ⟨given, digits, rfl⟩
    cases sign with
    | some c => rcases signs c rfl with rfl | rfl <;> simp [chars, signed?, natural, value]
    | none =>
        simp only [chars, Option.toList_none, List.nil_append]
        unfold signed?
        split
        · exact absurd (digits '+' (.head _)) (by decide)
        · exact absurd (digits '-' (.head _)) (by decide)
        · rw [natural]
          rfl

theorem denotes_iff : n.Denotes t ↔ ofUnixSeconds? n.value = some t := by
  rw [ofUnixSeconds?, of?_eq_some_iff]
  exact ⟨fun denoted => ⟨denoted.nanos, denoted.offset⟩, fun both => ⟨both.1, both.2⟩⟩

theorem exists_denoted_iff :
    (∃ t, n.Denotes t) ↔ -377705116800 ≤ n.value ∧ n.value ≤ 253402300799 := by
  simp only [denotes_iff, ← Option.isSome_iff_exists, ofUnixSeconds?, isSome_of?, firstLocalNano_eq,
    lastLocalNano_eq, maxOffset, secondNanos]
  omega

theorem IsReal.shown (real : n.IsReal) : ∀ c ∈ n.chars, isBlank c = false := by
  rw [chars, List.forall_mem_append]
  refine ⟨fun c member => ?_, fun c member => isBlank_of_isDigit (real.digits c member)⟩
  rcases real.sign c (by simpa using member) with rfl | rfl <;> rfl

theorem ofSecondsChars?_eq_some_iff {cs : List Char} :
    ofSecondsChars? cs = some t ↔ ∃ n : Count, n.IsReal ∧ n.chars = cs ∧ n.Denotes t := by
  simp only [ofSecondsChars?, Option.bind_eq_bind, Option.bind_eq_some_iff, signed?_eq_some_iff,
    denotes_iff]
  constructor
  · rintro ⟨_, ⟨n, real, written, rfl⟩, made⟩
    exact ⟨n, real, written, made⟩
  · rintro ⟨n, real, written, made⟩
    exact ⟨_, ⟨n, real, written, rfl⟩, made⟩

end Count

/-- A timestamp starts with a digit and has a line later on, which no count of seconds does. -/
theorem Stamp.chars_ne {n : Count} (real : n.IsReal) (s : Stamp) : s.chars ≠ n.chars := by
  intro same
  obtain ⟨c, ds, year⟩ : ∃ c ds, padded 4 s.date.year.toNat = c :: ds :=
    List.exists_cons_of_ne_nil (by simp [padded, natDigits_ne_nil])
  have member : c ∈ padded 4 s.date.year.toNat := by
    rw [year]
    exact .head _
  have digit : isDigit c = true := isDigit_of_mem_padded member
  have dash : '-' ∈ n.chars := by
    rw [← same, Stamp.chars]
    simp
  have first : s.chars.head? = some c := by
    rw [Stamp.chars, year]
    rfl
  rw [same, Count.chars] at first
  rw [Count.chars, List.mem_append] at dash
  cases sign : n.sign with
  | none =>
      rw [sign] at dash
      exact absurd (real.digits '-' (by simpa using dash)) (by decide)
  | some d =>
      rw [sign] at first
      obtain rfl : d = c := by simpa using first
      rcases real.sign d sign with rfl | rfl <;> cases digit

theorem ofText?_eq_some_iff {raw : String} {t : Instant} :
    ofText? raw = some t ↔
      (∃ s : Stamp, s.IsReal ∧ s.chars = trimChars raw.toList ∧ s.Denotes t ∧
        (s.second = 60 → t.EndsMonth)) ∨
      ∃ n : Count, n.IsReal ∧ n.chars = trimChars raw.toList ∧ n.Denotes t := by
  rw [← ofRfc3339Chars?_eq_some_iff, ← Count.ofSecondsChars?_eq_some_iff, ofText?]
  cases stamp : ofRfc3339Chars? (trimChars raw.toList) with
  | none => simp
  | some u =>
      -- What is a timestamp is no count of seconds.
      have other : ¬ ofSecondsChars? (trimChars raw.toList) = some t := by
        intro count
        obtain ⟨s, -, written, -⟩ := ofRfc3339Chars?_eq_some_iff.mp stamp
        obtain ⟨n, real, counted, -⟩ := Count.ofSecondsChars?_eq_some_iff.mp count
        exact s.chars_ne real (written.trans counted.symm)
      simp [other]

/-- A text is read if, without the white space around it, it is a timestamp of a real second or a count of seconds
on the calendar. It is then one of the two only, and is read as the instant that it denotes. -/
theorem notations_exact (raw : String) :
    let text := trimChars raw.toList
    ((∃ t, ofText? raw = some t) ↔
      (∃ s : Stamp, s.IsReal ∧ s.chars = text ∧ (s.second = 60 → ∃ t, s.Denotes t ∧ t.EndsMonth)) ∨
        ∃ n : Count, n.IsReal ∧ n.chars = text ∧ -377705116800 ≤ n.value ∧ n.value ≤ 253402300799) ∧
      ¬ ((∃ s : Stamp, s.chars = text) ∧ ∃ n : Count, n.IsReal ∧ n.chars = text) ∧
      ∀ t, ofText? raw = some t →
        (∃ s : Stamp, s.IsReal ∧ s.chars = text ∧ s.Denotes t ∧ ∀ u, s.Denotes u → u = t) ∨
          ∃ n : Count, n.IsReal ∧ n.chars = text ∧ n.Denotes t ∧ ∀ u, n.Denotes u → u = t := by
  intro text
  refine ⟨?_, ?_, fun t read => ?_⟩
  · constructor
    · rintro ⟨t, read⟩
      rcases ofText?_eq_some_iff.mp read with ⟨s, real, written, denoted, leap⟩ | ⟨n, real, written, denoted⟩
      · exact .inl ⟨s, real, written, fun second => ⟨t, denoted, leap second⟩⟩
      · exact .inr ⟨n, real, written, Count.exists_denoted_iff.mp ⟨t, denoted⟩⟩
    · rintro (⟨s, real, written, leap⟩ | ⟨n, real, written, range⟩)
      · obtain ⟨t, denoted, only⟩ := real.exists_denoted
        refine ⟨t, ofText?_eq_some_iff.mpr (.inl ⟨s, real, written, denoted, fun second => ?_⟩)⟩
        obtain ⟨u, denoted', ends⟩ := leap second
        exact only u denoted' ▸ ends
      · obtain ⟨t, denoted⟩ := Count.exists_denoted_iff.mpr range
        exact ⟨t, ofText?_eq_some_iff.mpr (.inr ⟨n, real, written, denoted⟩)⟩
  · rintro ⟨⟨s, written⟩, n, real, counted⟩
    exact s.chars_ne real (written.trans counted.symm)
  · rcases ofText?_eq_some_iff.mp read with ⟨s, real, written, denoted, -⟩ | ⟨n, real, written, denoted⟩
    · obtain ⟨t', -, only⟩ := real.exists_denoted
      exact .inl ⟨s, real, written, denoted, fun u also => (only u also).trans (only t denoted).symm⟩
    · refine .inr ⟨n, real, written, denoted, fun u also => ?_⟩
      exact Option.some.inj ((Count.denotes_iff.mp also).symm.trans (Count.denotes_iff.mp denoted))

theorem notations_exact_leap_second :
    let s : Stamp := ⟨⟨2016, 12, 31⟩, ' ', 18, 59, 60, ['2', '5'], .shifted false 5 0⟩
    let t : Instant := ⟨1483228799999999999, -18000, by decide, by decide⟩
    s.IsReal ∧ s.chars = "2016-12-31 18:59:60.25-05:00".toList ∧ s.Denotes t ∧ t.EndsMonth ∧
      ∃ u, ofText? "\t2016-12-31 18:59:60.25-05:00 " = some u := by
  intro s t
  have digits : ∀ c ∈ s.fraction, isDigit c = true := by
    refine List.forall_mem_cons.mpr ⟨rfl, ?_⟩
    exact List.forall_mem_singleton.mpr rfl
  have real : s.IsReal := ⟨by decide, by decide, rfl, by decide, digits, by decide, by decide⟩
  have denoted : s.Denotes t := ⟨by decide, by decide, rfl⟩
  have ends : t.EndsMonth := by decide
  refine ⟨real, by decide, denoted, ends, ?_⟩
  exact (notations_exact "\t2016-12-31 18:59:60.25-05:00 ").1.mpr
    (.inl ⟨s, real, by decide, fun _ => ⟨t, denoted, ends⟩⟩)

theorem ofText?_surrounded {before after : List Char} (blank : ∀ c ∈ before, isBlank c = true)
    (blank' : ∀ c ∈ after, isBlank c = true) (raw : String) :
    ofText? (String.ofList before ++ raw ++ String.ofList after) = ofText? raw := by
  simp only [ofText?, String.toList_append, String.toList_ofList, List.append_assoc,
    trimChars_surrounded blank blank']

theorem Count.IsReal.ofText?_chars {n : Count} (real : n.IsReal) {t : Instant} (denoted : n.Denotes t) :
    ofText? (String.ofList n.chars) = some t := by
  refine ofText?_eq_some_iff.mpr (.inr ⟨n, real, ?_, denoted⟩)
  rw [String.toList_ofList]
  exact (trimChars_eq (fun c first => real.shown c (List.mem_of_mem_head? first))
    fun c last => real.shown c (List.mem_of_mem_getLast? last)).symm

theorem toList_toString (n : Int) : (toString n).toList = intDigits n := by
  cases n with
  | ofNat n => exact String.toList_ofList
  | negSucc n =>
      change ("-" ++ String.ofList (natDigits (n + 1))).toList = _
      rw [String.toList_append, String.toList_ofList, String.toList_ofList]
      rfl

theorem exists_count (seconds : Int) :
    ∃ n : Count, n.IsReal ∧ String.ofList n.chars = toString seconds ∧ n.value = seconds ∧
      (0 ≤ seconds → n.sign = none) := by
  have digits (n : Nat) : ∀ c ∈ natDigits n, isDigit c = true := fun _ member =>
    isDigit_of_mem_natDigits member
  have written (n : Count) (same : n.chars = intDigits seconds) :
      String.ofList n.chars = toString seconds := by
    rw [same, ← toList_toString, String.ofList_toList]
  cases seconds with
  | ofNat n =>
      exact ⟨⟨none, natDigits n⟩, ⟨by simp, natDigits_ne_nil n, digits n⟩, written _ rfl,
        congrArg Int.ofNat (digitsValue_natDigits n), fun _ => rfl⟩
  | negSucc n =>
      refine ⟨⟨some '-', natDigits (n + 1)⟩, ⟨by simp, natDigits_ne_nil _, digits _⟩, written _ rfl, ?_,
        fun positive => absurd positive (by omega)⟩
      rw [Count.value, if_pos rfl, digitsValue_natDigits]
      omega

theorem exists_ofUnixSeconds? {second : Int} (early : 0 ≤ (utcDate second).year)
    (late : (utcDate second).year ≤ 9999) :
    ∃ t, ofUnixSeconds? second = some t ∧ t.isWritable = true := by
  have day := Date.isDateOf_ofDayNumber (second / daySeconds + epochDay)
  obtain ⟨first, last⟩ := day.real.dayNumber_bound
  rw [day.number] at first last
  change yearStart (utcDate second).year ≤ _ at first
  change _ < yearStart ((utcDate second).year + 1) at last
  have range : -62167219200 ≤ second ∧ second ≤ 253402300799 := by
    unfold yearStart at first last
    simp only [daySeconds, epochDay] at first last
    omega
  obtain ⟨t, made⟩ : ∃ t, ofUnixSeconds? second = some t := by
    rw [← Option.isSome_iff_exists, ofUnixSeconds?, isSome_of?]
    simp only [firstLocalNano_eq, lastLocalNano_eq, maxOffset, secondNanos]
    omega
  obtain ⟨nanos, offset⟩ := of?_eq_some made
  have date : t.localDate = utcDate second := by
    rw [localDate, localDay, localNanos, nanos, offset, utcDate]
    congr 1
    simp only [daySeconds, secondNanos]
    omega
  exact ⟨t, made, isWritable_iff.mpr ⟨date ▸ ⟨early, late⟩, by rw [offset]; rfl, by rw [offset]; decide⟩⟩

theorem rfc3339?_eq_some_iff {t : Instant} {text : String} :
    t.rfc3339? = some text ↔ t.isWritable = true ∧ String.ofList t.rfc3339Chars = text := by
  unfold rfc3339?
  split
  · next writable => simp [writable]
  · next unwritable => simp [unwritable]

/-- An instant of a year of four digits, at a whole minute of offset below a day, is read back from its timestamp; a
second of such a year is read alike from its number and from its timestamp; and whatever was read is read again from
the timestamp that it has, if any. -/
theorem instants_survive_text :
    (∀ t : Instant, 0 ≤ t.localDate.year → t.localDate.year ≤ 9999 → t.offset % 60 = 0 →
      -86340 ≤ t.offset → t.offset ≤ 86340 →
      ∃ text, t.rfc3339? = some text ∧
        (∃ s : Stamp, s.IsReal ∧ s.chars = text.toList ∧ s.Denotes t) ∧
        ∀ before after : List Char, (∀ c ∈ before, isBlank c = true) → (∀ c ∈ after, isBlank c = true) →
          ofText? (String.ofList before ++ text ++ String.ofList after) = some t) ∧
    (∀ second : Int, 0 ≤ (utcDate second).year → (utcDate second).year ≤ 9999 →
      ∃ t text, t.nanos = second * secondNanos ∧ t.offset = 0 ∧ ofText? (toString second) = some t ∧
        (0 ≤ second → ofText? ("+" ++ toString second) = some t) ∧
        t.rfc3339? = some text ∧ ofText? text = some t) ∧
    ∀ raw t text, ofText? raw = some t → t.rfc3339? = some text → ofText? text = some t := by
  refine ⟨fun t early late whole behind ahead => ?_, fun second early late => ?_,
    fun raw t text _ written => ?_⟩
  · have writable : t.isWritable = true := isWritable_iff.mpr ⟨⟨early, late⟩, whole, by omega⟩
    refine ⟨_, rfc3339?_eq_some_iff.mpr ⟨writable, rfl⟩, ?_, fun before after blank blank' => ?_⟩
    · obtain ⟨s, real, written, denoted, -⟩ :=
        ofRfc3339Chars?_eq_some_iff.mp (ofRfc3339Chars?_rfc3339Chars writable)
      exact ⟨s, real, written.trans String.toList_ofList.symm, denoted⟩
    · rw [ofText?_surrounded blank blank', ofText?_rfc3339Chars writable]
  · obtain ⟨t, made, writable⟩ := exists_ofUnixSeconds? early late
    obtain ⟨n, real, written, value, plain⟩ := exists_count second
    obtain ⟨nanos, offset⟩ := of?_eq_some made
    have denoted : n.Denotes t := Count.denotes_iff.mpr (value ▸ made)
    refine ⟨t, _, nanos, offset, written ▸ real.ofText?_chars denoted, fun positive => ?_,
      rfc3339?_eq_some_iff.mpr ⟨writable, rfl⟩, ofText?_rfc3339Chars writable⟩
    have unsigned := plain positive
    have signed : Count.IsReal ⟨some '+', n.digits⟩ := ⟨by simp, real.given, real.digits⟩
    have same : Count.value ⟨some '+', n.digits⟩ = n.value := by
      simp [Count.value, unsigned]
    have text : "+" ++ toString second = String.ofList (Count.chars ⟨some '+', n.digits⟩) := by
      rw [← written, Count.chars, Count.chars, unsigned, ← String.toList_inj, String.toList_append]
      simp
    rw [text]
    exact signed.ofText?_chars ⟨same ▸ denoted.nanos, denoted.offset⟩
  · obtain ⟨writable, rfl⟩ := rfc3339?_eq_some_iff.mp written
    exact ofText?_rfc3339Chars writable

theorem instants_survive_text_leap_second :
    let leap : Instant := ⟨1483228799999999999, 0, by decide, by decide⟩
    let late : Instant := ⟨253402387139000000001, -86340, by decide, by decide⟩
    (ofText? "2016-12-31T23:59:60.1234567891-00:00" = some leap ∧
      ofText? "2016-12-31T23:59:59.999999999Z" = some leap) ∧
      (∃ t text, t.nanos = -1 * secondNanos ∧ ofText? (toString (-1 : Int)) = some t ∧
        t.rfc3339? = some text ∧ ofText? text = some t) ∧
      ∃ text, late.rfc3339? = some text ∧
        ofText? (String.ofList ['\u3000'] ++ text ++ String.ofList ['\n', ' ']) = some late := by
  intro leap late
  obtain ⟨survives, counted, again⟩ := instants_survive_text
  have read : ofText? "2016-12-31T23:59:60.1234567891-00:00" = some leap := by decide
  refine ⟨⟨read, again _ leap _ read (by decide)⟩, ?_, ?_⟩
  · obtain ⟨t, text, nanos, -, number, -, stamp, reread⟩ := counted (-1) (by decide) (by decide)
    exact ⟨t, text, nanos, number, stamp, reread⟩
  · obtain ⟨text, written, -, surrounded⟩ :=
      survives late (by decide) (by decide) (by decide) (by decide) (by decide)
    refine ⟨text, written, surrounded _ _ (List.forall_mem_singleton.mpr rfl) ?_⟩
    exact List.forall_mem_cons.mpr ⟨rfl, List.forall_mem_singleton.mpr rfl⟩

end Instant

end RetirementLedger

import Mathlib.Data.List.TakeWhile
import RetirementLedger.Instant.Text
import RetirementLedger.Proofs.Calendar
import RetirementLedger.Proofs.Text.Blank
import RetirementLedger.Proofs.Text.Numeral

namespace RetirementLedger.Instant
open Text Calendar

section Digits
variable (rest : List Char)

theorem fixedDigits?_padded {width n : Nat} (positive : 0 < width) (bound : n < Nat.pow 10 width) :
    fixedDigits? width (padded width n ++ rest) = some (n, rest) := by
  have length := length_padded positive bound
  have digits : (padded width n).all isDigit = true :=
    List.all_eq_true.mpr fun c member => isDigit_of_mem_padded member
  simp only [fixedDigits?, List.take_left' length, List.drop_left' length, length, digits,
    digitsValue_padded, and_self, if_true]

theorem twoDigits? {n : Nat} (bound : n < 100) :
    fixedDigits? 2 (padded 2 n ++ rest) = some (n, rest) :=
  fixedDigits?_padded rest (by decide) bound

end Digits

def fractionDigits (nanos : Nat) : List Char :=
  ((padded 9 nanos).reverse.dropWhile (· == '0')).reverse

theorem exists_zeros (nanos : Nat) :
    ∃ zeros, padded 9 nanos = fractionDigits nanos ++ List.replicate zeros '0' := by
  have split : (padded 9 nanos).reverse = (padded 9 nanos).reverse.takeWhile (· == '0') ++
      (padded 9 nanos).reverse.dropWhile (· == '0') := List.takeWhile_append_dropWhile.symm
  have zeros : (padded 9 nanos).reverse.takeWhile (· == '0') =
      List.replicate ((padded 9 nanos).reverse.takeWhile (· == '0')).length '0' :=
    List.eq_replicate_of_mem fun c member =>
      beq_iff_eq.mp (List.mem_takeWhile_imp (p := (· == '0')) member)
  refine ⟨((padded 9 nanos).reverse.takeWhile (· == '0')).length, ?_⟩
  rw [← List.reverse_inj, List.reverse_append, List.reverse_replicate, fractionDigits,
    List.reverse_reverse, ← zeros]
  exact split

theorem isDigit_of_mem_fractionDigits {nanos : Nat} {c : Char} (member : c ∈ fractionDigits nanos) :
    isDigit c = true := by
  obtain ⟨zeros, split⟩ := exists_zeros nanos
  exact isDigit_of_mem_padded (split ▸ List.mem_append_left _ member)

theorem fractionNanos_fractionDigits {nanos : Nat} (bound : nanos < Nat.pow 10 9) :
    fractionNanos (fractionDigits nanos) = nanos := by
  obtain ⟨zeros, split⟩ := exists_zeros nanos
  have length := length_padded (by decide) bound
  have value := digitsValue_padded 9 nanos
  rw [split, List.length_append, List.length_replicate] at length
  rw [split, digitsValue_append, digitsValue_zeros, List.length_replicate] at value
  have short : (fractionDigits nanos).take 9 = fractionDigits nanos :=
    List.take_of_length_le (by omega)
  have missing : 9 - (fractionDigits nanos).length = zeros := by omega
  rw [fractionNanos, short, missing]
  exact value

def fractionText (ds : List Char) : List Char := if ds = [] then [] else '.' :: ds

theorem fraction?_fractionText {ds : List Char} (digits : ∀ d ∈ ds, isDigit d = true) {c : Char}
    (other : isDigit c = false ∧ c ≠ '.') (rest : List Char) :
    fraction? (fractionText ds ++ c :: rest) = some (fractionNanos ds, c :: rest) := by
  unfold fractionText
  split
  · next none =>
      rw [List.nil_append, none]
      unfold fraction?
      split
      · next same =>
          cases same
          exact absurd rfl other.2
      · rfl
  · next given =>
      rw [List.cons_append, fraction?, List.takeWhile_append_of_pos digits,
        List.dropWhile_append_of_pos digits, List.takeWhile_cons_of_neg (by simp [other.1]),
        List.dropWhile_cons_of_neg (by simp [other.1]), List.append_nil]
      simp [given]

theorem fractionChars_eq {nanos : Nat} (bound : nanos < Nat.pow 10 9) :
    fractionChars nanos = fractionText (fractionDigits nanos) := by
  have value := fractionNanos_fractionDigits bound
  unfold fractionChars fractionText
  by_cases none : nanos = 0
  · rw [none]
    rfl
  · have given : fractionDigits nanos ≠ [] := by
      intro empty
      rw [empty] at value
      exact none value.symm
    rw [if_neg none, if_neg given]
    rfl

theorem fraction?_fractionChars {nanos : Nat} (bound : nanos < Nat.pow 10 9) {c : Char}
    (other : isDigit c = false ∧ c ≠ '.') (rest : List Char) :
    fraction? (fractionChars nanos ++ c :: rest) = some (nanos, c :: rest) := by
  rw [fractionChars_eq bound,
    fraction?_fractionText (fun _ member => isDigit_of_mem_fractionDigits member) other,
    fractionNanos_fractionDigits bound]

theorem offset?_offsetChars {offset : Int} (whole : offset % 60 = 0) (bound : offset.natAbs < 86400) :
    offset? (offsetChars offset) = some offset := by
  unfold offsetChars
  split
  · next utc =>
      rw [utc]
      rfl
  · next shifted =>
      have size := Int.natAbs_eq offset
      generalize offset.natAbs = n at size bound ⊢
      have hours := twoDigits? (':' :: padded 2 (n / 60 % 60)) (show n / 60 / 60 < 100 by omega)
      have minutes := twoDigits? [] (show n / 60 % 60 < 100 by omega)
      rw [List.append_nil] at minutes
      have bounds : n / 60 / 60 < 24 ∧ n / 60 % 60 < 60 := by omega
      by_cases behind : offset < 0
      · simp [offset?, behind, hours, minutes, symbol?, bounds]
        omega
      · simp [offset?, behind, hours, minutes, symbol?, bounds]
        omega

theorem exists_offsetChars (offset : Int) :
    ∃ c rest, offsetChars offset = c :: rest ∧ isDigit c = false ∧ c ≠ '.' := by
  unfold offsetChars
  split
  · exact ⟨'Z', [], rfl, rfl, by decide⟩
  · by_cases behind : offset < 0
    · exact ⟨'-', _, by rw [if_pos behind], rfl, by decide⟩
    · exact ⟨'+', _, by rw [if_neg behind], rfl, by decide⟩

theorem date?_padded {d : Date} (year : 0 ≤ d.year ∧ d.year ≤ 9999) (month : d.month < 100)
    (day : d.day < 100) (real : d.IsReal) (rest : List Char) :
    date? (padded 4 d.year.toNat ++ '-' :: (padded 2 d.month ++ '-' :: (padded 2 d.day ++ rest))) =
      some (d, rest) := by
  have fourDigits (rest : List Char) :
      fixedDigits? 4 (padded 4 d.year.toNat ++ rest) = some (d.year.toNat, rest) :=
    fixedDigits?_padded rest (by decide) (show d.year.toNat < 10000 by omega)
  have same : ((d.year.toNat : Nat) : Int) = d.year := Int.toNat_of_nonneg year.1
  simp [date?, fourDigits, twoDigits? _ month, twoDigits? _ day, symbol?, same, real]

theorem timeOfDay?_padded {hour minute second : Nat} (hours : hour < 24) (minutes : minute < 60)
    (seconds : second ≤ 60) (rest : List Char) :
    timeOfDay? (padded 2 hour ++ ':' :: (padded 2 minute ++ ':' :: (padded 2 second ++ rest))) =
      some ((hour, minute, second), rest) := by
  have bounds : hour < 24 ∧ minute < 60 ∧ second ≤ 60 := ⟨hours, minutes, seconds⟩
  simp [timeOfDay?, twoDigits? _ (show hour < 100 by omega), twoDigits? _ (show minute < 100 by omega),
    twoDigits? _ (show second < 100 by omega), symbol?, bounds]

theorem of?_self (t : Instant) : of? t.nanos t.offset = some t := by
  rw [of?, dif_pos t.offset_bound, dif_pos t.local_bound]

theorem ofParts?_localDate (t : Instant) :
    ofParts? t.localDate (t.nanoOfDay / 1000000000 / 3600) (t.nanoOfDay / 1000000000 / 60 % 60)
      (t.nanoOfDay / 1000000000 % 60) (t.nanoOfDay % 1000000000) t.offset = some t := by
  have day : t.localDate.dayNumber = t.localDay := (Date.isDateOf_ofDayNumber t.localDay).number
  have second : t.nanoOfDay / 1000000000 % 60 < 60 := Nat.mod_lt _ (by decide)
  unfold ofParts?
  dsimp only
  rw [if_pos second, day, Nat.min_eq_left (by omega)]
  have nanos : ((t.localDay - epochDay) * daySeconds +
      ((t.nanoOfDay / 1000000000 / 3600 * 3600 + t.nanoOfDay / 1000000000 / 60 % 60 * 60 +
        t.nanoOfDay / 1000000000 % 60 : Nat) : Int) - t.offset) * secondNanos +
      ((t.nanoOfDay % 1000000000 : Nat) : Int) = t.nanos := by
    have inside : t.nanoOfDay < 86400000000000 := by
      simp only [nanoOfDay, daySeconds, secondNanos]
      omega
    have whole : (t.localDay - epochDay) * 86400000000000 + t.nanoOfDay = t.nanos + t.offset * 1000000000 := by
      simp only [nanoOfDay, localDay, localNanos, daySeconds, secondNanos, epochDay]
      omega
    simp only [daySeconds, secondNanos]
    omega
  rw [nanos, of?_self]

theorem isWritable_iff {t : Instant} :
    t.isWritable = true ↔
      (0 ≤ t.localDate.year ∧ t.localDate.year ≤ 9999) ∧ t.offset % 60 = 0 ∧
        t.offset.natAbs < 86400 := by
  simp [isWritable, and_assoc]

theorem ofRfc3339Chars?_rfc3339Chars {t : Instant} (writable : t.isWritable = true) :
    ofRfc3339Chars? t.rfc3339Chars = some t := by
  obtain ⟨year, whole, bound⟩ := isWritable_iff.mp writable
  have date : t.localDate.IsDateOf t.localDay := Date.isDateOf_ofDayNumber t.localDay
  obtain ⟨c, rest, first, other⟩ := exists_offsetChars t.offset
  have offset := offset?_offsetChars whole bound
  have inside : t.nanoOfDay < 86400000000000 := by
    simp only [nanoOfDay, daySeconds, secondNanos]
    omega
  have fraction := @fraction?_fractionChars (t.nanoOfDay % 1000000000)
    (Nat.mod_lt _ (by decide)) _ other rest
  rw [first] at offset
  simp only [ofRfc3339Chars?, rfc3339Chars, List.append_assoc, List.cons_append, first]
  rw [date?_padded year (by have := date.month; omega) (by have := date.short; omega) date.real]
  simp only [Option.bind_eq_bind, Option.bind_some, symbol?, show isAscii 'T' = true from rfl, if_true]
  rw [timeOfDay?_padded (by omega) (by omega) (by omega)]
  simp only [Option.bind_some, fraction, offset]
  exact ofParts?_localDate t

theorem isBlank_of_isDigit {c : Char} (digit : isDigit c = true) : isBlank c = false := by
  simp [isDigit] at digit
  simp [isBlank]
  omega

theorem shown_padded (width n : Nat) : ∀ c ∈ padded width n, isBlank c = false := fun _ member =>
  isBlank_of_isDigit (isDigit_of_mem_padded member)

theorem shown_fractionChars (nanos : Nat) : ∀ c ∈ fractionChars nanos, isBlank c = false := by
  have digits : ∀ c ∈ fractionDigits nanos, isBlank c = false := fun _ member =>
    isBlank_of_isDigit (isDigit_of_mem_fractionDigits member)
  unfold fractionChars
  split
  · simp
  · exact List.forall_mem_cons.mpr ⟨rfl, digits⟩

theorem shown_offsetChars (offset : Int) : ∀ c ∈ offsetChars offset, isBlank c = false := by
  unfold offsetChars
  split
  · simp [isBlank]
  · refine List.forall_mem_cons.mpr ⟨by split <;> rfl, List.forall_mem_append.mpr ⟨?_, ?_⟩⟩
    · exact shown_padded 2 _
    · exact List.forall_mem_cons.mpr ⟨rfl, shown_padded 2 _⟩

theorem shown_rfc3339Chars (t : Instant) : ∀ c ∈ t.rfc3339Chars, isBlank c = false := by
  have numeral {width n : Nat} {c : Char} : c ∈ padded width n → isBlank c = false :=
    shown_padded width n c
  simp only [rfc3339Chars, List.forall_mem_append, List.forall_mem_cons]
  refine ⟨⟨⟨⟨⟨⟨⟨?_, rfl, ?_⟩, rfl, ?_⟩, rfl, ?_⟩, rfl, ?_⟩, rfl, ?_⟩, shown_fractionChars _⟩,
    shown_offsetChars _⟩ <;> exact fun _ => numeral

theorem ofText?_rfc3339Chars {t : Instant} (writable : t.isWritable = true) :
    ofText? (String.ofList t.rfc3339Chars) = some t := by
  have shown : trimChars t.rfc3339Chars = t.rfc3339Chars :=
    trimChars_eq (fun c first => t.shown_rfc3339Chars c (List.mem_of_mem_head? first))
      (fun c last => t.shown_rfc3339Chars c (List.mem_of_mem_getLast? last))
  rw [ofText?, String.toList_ofList, shown, ofRfc3339Chars?_rfc3339Chars writable]
  rfl

theorem ofRfc3339?_of_rfc3339? {t : Instant} {text : String} (written : t.rfc3339? = some text) :
    ofRfc3339? text = some t := by
  unfold rfc3339? at written
  split at written
  · next writable =>
      obtain rfl := Option.some.inj written
      rw [ofRfc3339?, String.toList_ofList]
      exact ofRfc3339Chars?_rfc3339Chars writable
  · cases written

end RetirementLedger.Instant

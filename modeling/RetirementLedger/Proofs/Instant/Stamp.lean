import RetirementLedger.Proofs.Instant
import RetirementLedger.Proofs.Instant.Text

namespace RetirementLedger.Instant
open Text Calendar

/-! ## Digits and symbols -/

section Read
variable {cs rest : List Char}

theorem fixedDigits?_eq_some_iff {width n : Nat} (positive : 0 < width) :
    fixedDigits? width cs = some (n, rest) ↔ n < Nat.pow 10 width ∧ cs = padded width n ++ rest := by
  constructor
  · intro read
    unfold fixedDigits? at read
    dsimp only at read
    split at read
    · next fits =>
        cases read
        have digits : ∀ c ∈ cs.take width, isDigit c = true := List.all_eq_true.mp fits.2
        have bound := digitsValue_lt digits
        rw [fits.1] at bound
        exact ⟨bound, by rw [padded_digitsValue positive fits.1 digits, List.take_append_drop]⟩
    · cases read
  · rintro ⟨bound, rfl⟩
    exact fixedDigits?_padded rest positive bound

theorem symbol?_eq_some_iff {p : Char → Bool} :
    symbol? p cs = some rest ↔ ∃ c, p c = true ∧ cs = c :: rest := by
  constructor
  · intro read
    unfold symbol? at read
    split at read
    · next c others =>
        split at read
        · next fits =>
            cases read
            exact ⟨c, fits, rfl⟩
        · cases read
    · cases read
  · rintro ⟨c, fits, rfl⟩
    simp [symbol?, fits]

theorem date?_eq_some_iff {d : Date} :
    date? cs = some (d, rest) ↔ (0 ≤ d.year ∧ d.year ≤ 9999) ∧ d.IsReal ∧
      cs = padded 4 d.year.toNat ++ '-' :: (padded 2 d.month ++ '-' :: (padded 2 d.day ++ rest)) := by
  constructor
  · intro read
    simp only [date?, Option.bind_eq_bind, Option.bind_eq_some_iff, Prod.exists,
      fixedDigits?_eq_some_iff (Nat.zero_lt_succ _), symbol?_eq_some_iff, beq_iff_eq] at read
    obtain ⟨year, _, ⟨bound, rfl⟩, _, ⟨_, rfl, rfl⟩, month, _, ⟨-, rfl⟩, _, ⟨_, rfl, rfl⟩, day, _, ⟨-, rfl⟩,
      read⟩ := read
    split at read
    · next real =>
        cases read
        exact ⟨⟨Int.natCast_nonneg year, Int.ofNat_le.mpr (Nat.le_of_lt_succ bound)⟩, real, rfl⟩
    · cases read
  · rintro ⟨year, real, rfl⟩
    have bounds := Date.isDateOf_ofDayNumber d.dayNumber
    rw [real.ofDayNumber_dayNumber] at bounds
    obtain ⟨-, -, month, day⟩ := bounds
    exact date?_padded year (by omega) (by omega) real rest

theorem timeOfDay?_eq_some_iff {hour minute second : Nat} :
    timeOfDay? cs = some ((hour, minute, second), rest) ↔
      (hour < 24 ∧ minute < 60 ∧ second ≤ 60) ∧
        cs = padded 2 hour ++ ':' :: (padded 2 minute ++ ':' :: (padded 2 second ++ rest)) := by
  constructor
  · intro read
    simp only [timeOfDay?, Option.bind_eq_bind, Option.bind_eq_some_iff, Prod.exists,
      fixedDigits?_eq_some_iff (Nat.zero_lt_succ _), symbol?_eq_some_iff, beq_iff_eq] at read
    obtain ⟨_, _, ⟨-, rfl⟩, _, ⟨_, rfl, rfl⟩, _, _, ⟨-, rfl⟩, _, ⟨_, rfl, rfl⟩, _, _, ⟨-, rfl⟩, read⟩ := read
    split at read
    · next bounds =>
        cases read
        exact ⟨bounds, rfl⟩
    · cases read
  · rintro ⟨⟨hours, minutes, seconds⟩, rfl⟩
    exact timeOfDay?_padded hours minutes seconds rest

end Read

/-! ## Fractions -/

theorem exists_fractionText {cs rest : List Char} {nanos : Nat}
    (read : fraction? cs = some (nanos, rest)) :
    ∃ ds, (∀ d ∈ ds, isDigit d = true) ∧ nanos = fractionNanos ds ∧ cs = fractionText ds ++ rest := by
  unfold fraction? at read
  split at read
  · next after =>
      dsimp only at read
      split at read
      · cases read
      · next given =>
          cases read
          have some : after.takeWhile isDigit ≠ [] := by simpa using given
          refine ⟨after.takeWhile isDigit, fun d member => List.mem_takeWhile_imp member, rfl, ?_⟩
          rw [fractionText, if_neg some, List.cons_append, List.takeWhile_append_dropWhile]
  · cases read
    exact ⟨[], List.forall_mem_nil _, rfl, rfl⟩

theorem fractionNanos_eq (ds : List Char) :
    fractionNanos ds = digitsValue ((ds ++ List.replicate 9 '0').take 9) := by
  have missing : min (9 - ds.length) 9 = 9 - (ds.take 9).length := by
    rw [List.length_take]
    omega
  rw [List.take_append, List.take_replicate, digitsValue_append, digitsValue_zeros,
    List.length_replicate, missing, fractionNanos, Nat.add_zero]

theorem fractionNanos_lt {ds : List Char} (digits : ∀ d ∈ ds, isDigit d = true) :
    fractionNanos ds < 1000000000 := by
  have nine : ((ds ++ List.replicate 9 '0').take 9).length = 9 := by simp
  have bound : digitsValue ((ds ++ List.replicate 9 '0').take 9) < Nat.pow 10 _ :=
    digitsValue_lt fun d member => by
      rcases List.mem_append.mp (List.mem_of_mem_take member) with own | zero
      · exact digits d own
      · rw [(List.mem_replicate.mp zero).2]
        rfl
  rw [nine, ← fractionNanos_eq] at bound
  exact bound

/-! ## Zones -/

inductive Zone where
  | utc (letter : Char)
  | shifted (isAhead : Bool) (hours minutes : Nat)
  deriving Repr, DecidableEq

namespace Zone

def chars : Zone → List Char
  | .utc letter => [letter]
  | .shifted isAhead hours minutes =>
    (if isAhead then '+' else '-') :: (padded 2 hours ++ ':' :: padded 2 minutes)

def IsReal : Zone → Prop
  | .utc letter => letter = 'Z' ∨ letter = 'z'
  | .shifted _ hours minutes => hours < 24 ∧ minutes < 60

def offset : Zone → Int
  | .utc _ => 0
  | .shifted isAhead hours minutes =>
    (if isAhead then 1 else -1) * (hours * 3600 + minutes * 60 : Nat)

variable {zone : Zone}

theorem IsReal.offset_bound (real : zone.IsReal) : -86340 ≤ zone.offset ∧ zone.offset ≤ 86340 := by
  cases zone with
  | utc letter => simp [offset]
  | shifted isAhead hours minutes =>
      obtain ⟨hour, minute⟩ := real
      cases isAhead <;> simp only [offset, Bool.false_eq_true, if_true, if_false] <;> omega

theorem IsReal.exists_chars (real : zone.IsReal) :
    ∃ c rest, zone.chars = c :: rest ∧ isDigit c = false ∧ c ≠ '.' := by
  cases zone with
  | utc letter => rcases real with rfl | rfl <;> exact ⟨_, _, rfl, rfl, by decide⟩
  | shifted isAhead hours minutes => cases isAhead <;> exact ⟨_, _, rfl, rfl, by decide⟩

end Zone

theorem exists_hours {cs : List Char} {factor offset : Int}
    (read : (do
      let (hours, rest) ← fixedDigits? 2 cs
      let rest ← symbol? (· == ':') rest
      let (minutes, rest) ← fixedDigits? 2 rest
      if hours < 24 ∧ minutes < 60 ∧ rest.isEmpty then
        some (factor * (hours * 3600 + minutes * 60 : Nat))
      else none) = some offset) :
    ∃ hours minutes : Nat, (hours < 24 ∧ minutes < 60) ∧ cs = padded 2 hours ++ ':' :: padded 2 minutes ∧
      offset = factor * (hours * 3600 + minutes * 60 : Nat) := by
  simp only [Option.bind_eq_bind, Option.bind_eq_some_iff, Prod.exists,
    fixedDigits?_eq_some_iff (Nat.zero_lt_succ _), symbol?_eq_some_iff, beq_iff_eq] at read
  obtain ⟨hours, _, ⟨-, rfl⟩, _, ⟨_, rfl, rfl⟩, minutes, rest, ⟨-, rfl⟩, read⟩ := read
  split at read
  · next bounds =>
      cases read
      obtain rfl : rest = [] := List.isEmpty_iff.mp bounds.2.2
      exact ⟨hours, minutes, ⟨bounds.1, bounds.2.1⟩, by rw [List.append_nil], rfl⟩
  · cases read

theorem offset?_eq_some_iff {cs : List Char} {offset : Int} :
    offset? cs = some offset ↔ ∃ zone : Zone, zone.IsReal ∧ cs = zone.chars ∧ offset = zone.offset := by
  constructor
  · intro read
    unfold offset? at read
    split at read
    · cases read
      exact ⟨.utc 'Z', .inl rfl, rfl, rfl⟩
    · cases read
      exact ⟨.utc 'z', .inr rfl, rfl, rfl⟩
    · split at read
      · next plus =>
          obtain ⟨hours, minutes, bounds, rfl, rfl⟩ := exists_hours read
          exact ⟨.shifted true hours minutes, bounds, by rw [plus]; rfl, rfl⟩
      · split at read
        · next minus =>
            obtain ⟨hours, minutes, bounds, rfl, rfl⟩ := exists_hours read
            exact ⟨.shifted false hours minutes, bounds, by rw [minus]; rfl, rfl⟩
        · cases read
    · cases read
  · rintro ⟨zone, real, rfl, rfl⟩
    cases zone with
    | utc letter => rcases real with rfl | rfl <;> rfl
    | shifted isAhead hours minutes =>
        obtain ⟨hour, minute⟩ := real
        have first := twoDigits? (':' :: padded 2 minutes) (show hours < 100 by omega)
        have second := twoDigits? [] (show minutes < 100 by omega)
        rw [List.append_nil] at second
        cases isAhead <;> simp [offset?, Zone.chars, Zone.offset, first, second, symbol?, hour, minute]

/-! ## Points of time -/

theorem localNanos_eq (t : Instant) :
    t.localNanos =
      (t.localDate.dayNumber - epochDay) * (daySeconds * secondNanos) + t.nanoOfDay := by
  have day : t.localDate.dayNumber = t.localDay := (Date.isDateOf_ofDayNumber t.localDay).number
  rw [day]
  simp only [localDay, nanoOfDay, daySeconds, secondNanos]
  omega

def EndsMonth (t : Instant) : Prop :=
  t.nanos / secondNanos % daySeconds = daySeconds - 1 ∧
    (Date.ofDayNumber (t.nanos / secondNanos / daySeconds + epochDay)).IsLast

instance (t : Instant) : Decidable t.EndsMonth := inferInstanceAs (Decidable (_ ∧ _))

theorem isMonthEnd_iff (t : Instant) : isMonthEnd (t.nanos / secondNanos) = true ↔ t.EndsMonth := by
  unfold isMonthEnd EndsMonth
  rw [Bool.and_eq_true, decide_eq_true_eq, decide_eq_true_eq, Date.isLast_ofDayNumber_iff]
  refine and_congr_right fun last => ?_
  have next : (t.nanos / secondNanos + 1) / daySeconds + epochDay =
      t.nanos / secondNanos / daySeconds + epochDay + 1 := by
    simp only [daySeconds] at last ⊢
    omega
  rw [next]

/-! ## Timestamps -/

structure Stamp where
  date : Date
  separator : Char
  hour : Nat
  minute : Nat
  second : Nat
  fraction : List Char
  zone : Zone

namespace Stamp

def chars (s : Stamp) : List Char :=
  padded 4 s.date.year.toNat ++ '-' :: (padded 2 s.date.month ++ '-' :: (padded 2 s.date.day ++
    s.separator :: (padded 2 s.hour ++ ':' :: (padded 2 s.minute ++ ':' :: (padded 2 s.second ++
      (fractionText s.fraction ++ s.zone.chars))))))

structure IsReal (s : Stamp) : Prop where
  year : 0 ≤ s.date.year ∧ s.date.year ≤ 9999
  date : s.date.IsReal
  separator : isAscii s.separator = true
  time : s.hour < 24 ∧ s.minute < 60 ∧ s.second ≤ 60
  fraction : ∀ c ∈ s.fraction, isDigit c = true
  zone : s.zone.IsReal

/-- Nine digits of the fraction count. A leap second is the last nanosecond of the second before it. -/
def nanoOfMinute (s : Stamp) : Nat :=
  if s.second = 60 then 59999999999
  else s.second * 1000000000 + digitsValue ((s.fraction ++ List.replicate 9 '0').take 9)

def nanoOfDay (s : Stamp) : Nat := (s.hour * 60 + s.minute) * 60000000000 + s.nanoOfMinute

structure Denotes (s : Stamp) (t : Instant) : Prop where
  date : t.localDate = s.date
  time : t.nanoOfDay = s.nanoOfDay
  offset : t.offset = s.zone.offset

def nanos (s : Stamp) : Int :=
  (s.date.dayNumber - epochDay) * (daySeconds * secondNanos) + s.nanoOfDay - s.zone.offset * secondNanos

variable {s : Stamp} {t : Instant}

theorem IsReal.nanoOfMinute_eq (real : s.IsReal) :
    s.nanoOfMinute = (min s.second 59) * 1000000000 +
      (if s.second = 60 then 999999999 else fractionNanos s.fraction) := by
  have seconds := real.time.2.2
  rw [nanoOfMinute, ← fractionNanos_eq]
  split <;> omega

theorem IsReal.nanoOfDay_lt (real : s.IsReal) : s.nanoOfDay < 86400000000000 := by
  obtain ⟨hours, minutes, -⟩ := real.time
  have fraction := fractionNanos_lt real.fraction
  rw [nanoOfDay, real.nanoOfMinute_eq]
  split <;> omega

theorem IsReal.denotes_iff (real : s.IsReal) :
    s.Denotes t ↔ t.nanos = s.nanos ∧ t.offset = s.zone.offset := by
  have day := t.localNanos_eq
  constructor
  · rintro ⟨date, time, offset⟩
    refine ⟨?_, offset⟩
    rw [date, time, localNanos, offset] at day
    rw [nanos]
    omega
  · rintro ⟨nanos, offset⟩
    have whole : t.localNanos = (s.date.dayNumber - epochDay) * (daySeconds * secondNanos) + s.nanoOfDay := by
      rw [localNanos, nanos, offset, Stamp.nanos]
      omega
    have inside := real.nanoOfDay_lt
    refine ⟨?_, ?_, offset⟩
    · rw [← real.date.ofDayNumber_dayNumber, localDate, localDay, whole]
      congr 1
      simp only [daySeconds, secondNanos]
      omega
    · rw [Instant.nanoOfDay, whole]
      simp only [daySeconds, secondNanos]
      omega

theorem IsReal.exists_of? (real : s.IsReal) : ∃ t, of? s.nanos s.zone.offset = some t := by
  have inside := real.nanoOfDay_lt
  have zone := real.zone.offset_bound
  obtain ⟨first, last⟩ := real.date.dayNumber_bound
  obtain ⟨early, late⟩ := real.year
  refine Option.isSome_iff_exists.mp (isSome_of?.mpr ⟨?_, ?_⟩)
  · simp only [maxOffset]
    omega
  · simp only [nanos, firstLocalNano_eq, lastLocalNano_eq, daySeconds, secondNanos, epochDay]
    unfold yearStart at first last
    omega

theorem IsReal.exists_denoted (real : s.IsReal) : ∃ t, s.Denotes t ∧ ∀ u, s.Denotes u → u = t := by
  obtain ⟨t, made⟩ := real.exists_of?
  refine ⟨t, real.denotes_iff.mpr (of?_eq_some made), fun u denoted => ?_⟩
  obtain ⟨nanos, offset⟩ := of?_eq_some made
  obtain ⟨nanos', offset'⟩ := real.denotes_iff.mp denoted
  exact eq_of_nanos (nanos'.trans nanos.symm) (offset'.trans offset.symm)

theorem IsReal.ofParts?_eq (real : s.IsReal) :
    ofParts? s.date s.hour s.minute s.second (fractionNanos s.fraction) s.zone.offset =
      if s.second < 60 ∨ isMonthEnd (s.nanos / secondNanos) = true then of? s.nanos s.zone.offset
      else none := by
  have time := real.nanoOfMinute_eq
  have fraction := fractionNanos_lt real.fraction
  have seconds := real.time.2.2
  unfold ofParts?
  dsimp only
  generalize whole : (s.date.dayNumber - epochDay) * daySeconds +
    (s.hour * 3600 + s.minute * 60 + min s.second 59 : Nat) - s.zone.offset = second
  have written : s.nanos = second * secondNanos +
      (if s.second = 60 then 999999999 else fractionNanos s.fraction : Nat) := by
    rw [← whole, nanos, nanoOfDay, time]
    simp only [daySeconds, secondNanos]
    split <;> omega
  by_cases leap : s.second = 60
  · rw [if_pos leap] at written
    have instant : second * secondNanos + (secondNanos - 1) = s.nanos := by
      rw [written]
      rfl
    have inside : s.nanos / secondNanos = second := by
      rw [written]
      simp only [secondNanos]
      omega
    simp only [leap, Nat.lt_irrefl, if_false, false_or, instant, inside]
  · rw [if_neg leap] at written
    have plain : s.second < 60 := by omega
    simp only [plain, true_or, if_true, written]

theorem IsReal.ofParts?_eq_some_iff (real : s.IsReal) :
    ofParts? s.date s.hour s.minute s.second (fractionNanos s.fraction) s.zone.offset = some t ↔
      s.Denotes t ∧ (s.second = 60 → t.EndsMonth) := by
  obtain ⟨u, made⟩ := real.exists_of?
  obtain ⟨nanos, offset⟩ := of?_eq_some made
  have seconds := real.time.2.2
  rw [real.ofParts?_eq, made, ← nanos]
  have same : u = t ↔ s.Denotes t := by
    rw [real.denotes_iff]
    constructor
    · rintro rfl
      exact ⟨nanos, offset⟩
    · rintro ⟨nanos', offset'⟩
      exact eq_of_nanos (nanos.trans nanos'.symm) (offset.trans offset'.symm)
  split
  · next allowed =>
      rw [Option.some.injEq, same, iff_self_and]
      intro denoted leap
      obtain rfl := same.mpr denoted
      exact u.isMonthEnd_iff.mp (allowed.resolve_left (by omega))
  · next refused =>
      refine iff_of_false (by simp) ?_
      rintro ⟨denoted, ends⟩
      obtain rfl := same.mpr denoted
      exact refused (.inr (u.isMonthEnd_iff.mpr (ends (by omega))))

end Stamp

/-- Just the timestamps are read, each as the instant that it denotes. -/
theorem ofRfc3339Chars?_eq_some_iff {cs : List Char} {t : Instant} :
    ofRfc3339Chars? cs = some t ↔
      ∃ s : Stamp, s.IsReal ∧ s.chars = cs ∧ s.Denotes t ∧ (s.second = 60 → t.EndsMonth) := by
  constructor
  · intro read
    simp only [ofRfc3339Chars?, Option.bind_eq_bind, Option.bind_eq_some_iff, Prod.exists,
      date?_eq_some_iff, symbol?_eq_some_iff, timeOfDay?_eq_some_iff, offset?_eq_some_iff] at read
    obtain ⟨date, _, ⟨year, day, rfl⟩, _, ⟨separator, ascii, rfl⟩, hour, minute, second, _, ⟨time, rfl⟩,
      nanos, _, fraction, offset, ⟨zone, shift, rfl, rfl⟩, made⟩ := read
    obtain ⟨ds, digits, rfl, rfl⟩ := exists_fractionText fraction
    have real : Stamp.IsReal ⟨date, separator, hour, minute, second, ds, zone⟩ :=
      ⟨year, day, ascii, time, digits, shift⟩
    exact ⟨_, real, rfl, real.ofParts?_eq_some_iff.mp made⟩
  · rintro ⟨s, real, rfl, denoted⟩
    obtain ⟨c, rest, first, other⟩ := real.zone.exists_chars
    have fraction := fraction?_fractionText real.fraction other rest
    rw [← first] at fraction
    simp only [ofRfc3339Chars?, Stamp.chars, Option.bind_eq_bind, Option.bind_some,
      date?_eq_some_iff.mpr ⟨real.year, real.date, rfl⟩, symbol?_eq_some_iff.mpr ⟨_, real.separator, rfl⟩,
      timeOfDay?_eq_some_iff.mpr ⟨real.time, rfl⟩, fraction,
      offset?_eq_some_iff.mpr ⟨_, real.zone, rfl, rfl⟩]
    exact real.ofParts?_eq_some_iff.mpr denoted

end RetirementLedger.Instant

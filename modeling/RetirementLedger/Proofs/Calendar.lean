import RetirementLedger.Calendar

namespace RetirementLedger.Calendar

theorem yearStart_succ (year : Int) : yearStart (year + 1) = yearStart year + yearLength year := by
  have leap : isLeapYear year = true ↔ year % 4 = 0 ∧ (year % 100 ≠ 0 ∨ year % 400 = 0) := by
    simp [isLeapYear]
  unfold yearStart yearLength
  split
  · next h =>
      have long := leap.mp h
      omega
  · next h =>
      have short := mt leap.mpr h
      omega

theorem yearStart_guess (day : Int) :
    yearStart (400 * day / 146097 - 1) ≤ day ∧ day < yearStart (400 * day / 146097 + 2) := by
  unfold yearStart
  omega

theorem yearOf_spec (day : Int) : yearStart (yearOf day) ≤ day ∧ day < yearStart (yearOf day + 1) := by
  obtain ⟨first, last⟩ := yearStart_guess day
  unfold yearOf
  dsimp only
  generalize 400 * day / 146097 = guess at first last ⊢
  -- The guess is the year itself, or the one before it, or the one after it.
  split
  · next early =>
      rw [show guess - 1 + 1 = guess by omega]
      exact ⟨first, early⟩
  · next reached =>
      split
      · next late =>
          rw [show guess + 1 + 1 = guess + 2 by omega]
          exact ⟨late, last⟩
      · next inside => exact ⟨Int.not_lt.mp reached, Int.not_le.mp inside⟩

theorem yearStart_mono {earlier later : Int} (before : earlier < later) :
    yearStart (earlier + 1) ≤ yearStart later := by
  unfold yearStart
  omega

theorem yearOf_eq {day year : Int} (first : yearStart year ≤ day) (last : day < yearStart (year + 1)) :
    yearOf day = year := by
  obtain ⟨first', last'⟩ := yearOf_spec day
  rcases Int.lt_trichotomy (yearOf day) year with before | same | after
  · have := yearStart_mono before
    omega
  · exact same
  · have := yearStart_mono after
    omega

theorem le_yearOf_iff {year day : Int} : year ≤ yearOf day ↔ yearStart year ≤ day := by
  obtain ⟨first, last⟩ := yearOf_spec day
  constructor
  · intro reached
    have started : yearStart year ≤ yearStart (yearOf day) := by
      unfold yearStart
      omega
    exact Int.le_trans started first
  · intro started
    refine Int.not_lt.mp fun before => ?_
    have ended := yearStart_mono before
    omega

theorem foldl_add (lengths : List Nat) (n : Nat) :
    lengths.foldl (· + ·) n = n + lengths.foldl (· + ·) 0 := by
  induction lengths generalizing n with
  | nil => rfl
  | cons length rest ih => rw [List.foldl_cons, List.foldl_cons, ih, ih (0 + length)]; omega

theorem monthAndDay_spec (lengths : List Nat) (month days : Nat)
    (bound : days < lengths.foldl (· + ·) 0) :
    ∃ passed, (monthAndDay lengths month days).1 = month + passed ∧ passed < lengths.length ∧
      1 ≤ (monthAndDay lengths month days).2 ∧
      (monthAndDay lengths month days).2 ≤ lengths.getD passed 0 ∧
      (lengths.take passed).foldl (· + ·) 0 + (monthAndDay lengths month days).2 = days + 1 := by
  induction lengths generalizing month days with
  | nil => cases bound
  | cons length rest ih =>
      unfold monthAndDay
      split
      · next here => exact ⟨0, by simp; omega⟩
      · next later =>
          rw [List.foldl_cons, foldl_add] at bound
          obtain ⟨passed, month', inside, first, last, sum⟩ :=
            ih (month + 1) (days - length) (by omega)
          refine ⟨passed + 1, by omega, by simpa using inside, first, by simpa using last, ?_⟩
          rw [List.take_succ_cons, List.foldl_cons, foldl_add]
          omega

theorem monthAndDay_take (lengths : List Nat) (month passed days : Nat)
    (inside : days < lengths.getD passed 0) :
    monthAndDay lengths month ((lengths.take passed).foldl (· + ·) 0 + days) =
      (month + passed, days + 1) := by
  induction lengths generalizing month passed with
  | nil => simp at inside
  | cons length rest ih =>
      cases passed with
      | zero => simpa [monthAndDay] using fun late => absurd inside (by simpa using late)
      | succ passed =>
          have later : ¬ length + (rest.take passed).foldl (· + ·) 0 + days < length := by omega
          rw [List.take_succ_cons, List.foldl_cons, Nat.zero_add, foldl_add, monthAndDay, if_neg later,
            show length + (rest.take passed).foldl (· + ·) 0 + days - length =
              (rest.take passed).foldl (· + ·) 0 + days by omega,
            ih (month + 1) passed (by simpa using inside), Nat.add_assoc, Nat.add_comm 1]

theorem foldl_monthLengths (year : Int) :
    (monthLengths (isLeapYear year)).foldl (· + ·) 0 = yearLength year := by
  unfold yearLength
  cases isLeapYear year <;> rfl

namespace Date

structure IsDateOf (d : Date) (day : Int) : Prop where
  number : d.dayNumber = day
  real : d.IsReal
  month : 1 ≤ d.month ∧ d.month ≤ 12
  short : d.day ≤ 31

theorem monthLength_le (leap : Bool) : ∀ length ∈ monthLengths leap, length ≤ 31 := by
  cases leap <;> decide

theorem ofDayNumber_eq (day : Int) :
    ofDayNumber day = ⟨yearOf day,
      (monthAndDay (monthLengths (isLeapYear (yearOf day))) 1 (day - yearStart (yearOf day)).toNat).1,
      (monthAndDay (monthLengths (isLeapYear (yearOf day))) 1
        (day - yearStart (yearOf day)).toNat).2⟩ := rfl

theorem isDateOf_ofDayNumber (day : Int) : (ofDayNumber day).IsDateOf day := by
  obtain ⟨first, last⟩ := yearOf_spec day
  rw [yearStart_succ] at last
  obtain ⟨passed, month, inside, positive, real, sum⟩ :=
    monthAndDay_spec (monthLengths (isLeapYear (yearOf day))) 1 (day - yearStart (yearOf day)).toNat
      (by rw [foldl_monthLengths]; omega)
  have twelve : (monthLengths (isLeapYear (yearOf day))).length = 12 := rfl
  rw [ofDayNumber_eq]
  generalize monthAndDay (monthLengths (isLeapYear (yearOf day))) 1
    (day - yearStart (yearOf day)).toNat = found at *
  have place : found.1 - 1 = passed := by omega
  have long : (monthLengths (isLeapYear (yearOf day))).getD passed 0 ≤ 31 := by
    rw [List.getD_eq_getElem?_getD, List.getElem?_eq_getElem inside, Option.getD_some]
    exact monthLength_le _ _ (List.getElem_mem inside)
  refine ⟨?_, ⟨positive, ?_⟩, by dsimp only; omega, Nat.le_trans real long⟩
  · dsimp only [dayNumber, daysBefore]
    rw [place]
    omega
  · dsimp only [monthLength]
    rw [if_neg (by omega), place]
    exact real

theorem exists_passed {year : Int} {month : Nat} (inhabited : 0 < monthLength year month) :
    ∃ passed < 12, month = passed + 1 := by
  cases month with
  | zero => cases inhabited
  | succ passed =>
      refine ⟨passed, ?_, rfl⟩
      rcases Nat.lt_or_ge passed 12 with inside | outside
      · exact inside
      · have beyond : (monthLengths (isLeapYear year))[passed]? = none :=
          List.getElem?_eq_none outside
        have empty : monthLength year (passed + 1) = ((none : Option Nat)).getD 0 :=
          congrArg (·.getD 0) beyond
        rw [empty] at inhabited
        cases inhabited

theorem daysBefore_succ (year : Int) {passed : Nat} (inside : passed < 12) :
    daysBefore year (passed + 1 + 1) = daysBefore year (passed + 1) + monthLength year (passed + 1) ∧
      daysBefore year (passed + 1 + 1) ≤ yearLength year := by
  have sums : ∀ leap, ∀ passed < 12,
      ((monthLengths leap).take (passed + 1)).foldl (· + ·) 0 =
          ((monthLengths leap).take passed).foldl (· + ·) 0 + (monthLengths leap).getD passed 0 ∧
        ((monthLengths leap).take (passed + 1)).foldl (· + ·) 0 ≤ if leap then 366 else 365 := by
    decide
  exact sums _ _ inside

theorem daysBefore_end (year : Int) : daysBefore year 13 = yearLength year := foldl_monthLengths year

variable {d : Date}

theorem IsReal.dayNumber_bound (real : d.IsReal) :
    yearStart d.year ≤ d.dayNumber ∧ d.dayNumber < yearStart (d.year + 1) := by
  obtain ⟨first, last⟩ := real
  obtain ⟨passed, inside, month⟩ := exists_passed (Nat.lt_of_lt_of_le first last)
  have fits := daysBefore_succ d.year inside
  rw [yearStart_succ, dayNumber]
  rw [month] at last ⊢
  omega

theorem IsReal.ofDayNumber_dayNumber (real : d.IsReal) : ofDayNumber d.dayNumber = d := by
  have found : yearOf d.dayNumber = d.year :=
    yearOf_eq real.dayNumber_bound.1 real.dayNumber_bound.2
  obtain ⟨year, month, day⟩ := d
  obtain ⟨first, last⟩ : 1 ≤ day ∧ day ≤ monthLength year month := real
  obtain ⟨passed, inside, rfl⟩ := exists_passed (Nat.lt_of_lt_of_le first last)
  have number : dayNumber ⟨year, passed + 1, day⟩ =
      yearStart year + (daysBefore year (passed + 1) + (day - 1) : Nat) := by
    simp only [dayNumber]
    omega
  have days : (dayNumber ⟨year, passed + 1, day⟩ - yearStart year).toNat =
      daysBefore year (passed + 1) + (day - 1) := by
    omega
  have place : monthAndDay (monthLengths (isLeapYear year)) 1
      (daysBefore year (passed + 1) + (day - 1)) = (1 + passed, day - 1 + 1) :=
    monthAndDay_take _ 1 passed (day - 1) (show day - 1 < monthLength year (passed + 1) by omega)
  rw [ofDayNumber_eq, found, days, place, Nat.sub_add_cancel first, Nat.add_comm 1]

def IsLast (d : Date) : Prop := d.day = monthLength d.year d.month

instance (d : Date) : Decidable d.IsLast := inferInstanceAs (Decidable (_ = _))

theorem isReal_first (year : Int) {passed : Nat} (inside : passed < 12) :
    IsReal ⟨year, passed + 1, 1⟩ := by
  have lengths : ∀ leap, ∀ passed < 12, 1 ≤ (monthLengths leap).getD passed 0 := by decide
  exact ⟨Nat.le_refl 1, lengths _ _ inside⟩

theorem isLast_ofDayNumber_iff (day : Int) :
    (ofDayNumber day).IsLast ↔ (ofDayNumber (day + 1)).day = 1 := by
  obtain ⟨number, ⟨first, last⟩, -, -⟩ := isDateOf_ofDayNumber day
  generalize ofDayNumber day = d at number first last
  obtain ⟨year, month, dayOfMonth⟩ := d
  dsimp only at first last
  obtain ⟨passed, inside, rfl⟩ := exists_passed (Nat.lt_of_lt_of_le first last)
  obtain ⟨sum, -⟩ := daysBefore_succ year inside
  have next {d : Date} (real : d.IsReal) (after : d.dayNumber = day + 1) :
      ofDayNumber (day + 1) = d := by
    rw [← after, real.ofDayNumber_dayNumber]
  simp only [dayNumber] at number
  by_cases ended : dayOfMonth = monthLength year (passed + 1)
  · refine iff_of_true ended ?_
    rcases Nat.lt_or_ge (passed + 1) 12 with later | december
    · rw [next (isReal_first year later)]
      simp only [dayNumber]
      omega
    · obtain rfl : passed = 11 := by omega
      rw [next (isReal_first (year + 1) (Nat.zero_lt_succ 11))]
      have started : daysBefore (year + 1) (0 + 1) = 0 := rfl
      rw [daysBefore_end] at sum
      simp only [dayNumber, yearStart_succ]
      omega
  · have real : IsReal ⟨year, passed + 1, dayOfMonth + 1⟩ :=
      ⟨Nat.le_add_left 1 dayOfMonth, Nat.lt_of_le_of_ne last ended⟩
    refine iff_of_false ended ?_
    rw [next real]
    · exact Nat.ne_of_gt (Nat.lt_succ_of_le first)
    · simp only [dayNumber]
      omega

end Date

end RetirementLedger.Calendar

namespace RetirementLedger.Calendar

def isLeapYear (year : Int) : Bool :=
  year % 4 = 0 && (year % 100 ≠ 0 || year % 400 = 0)

def yearLength (year : Int) : Nat := if isLeapYear year then 366 else 365

def yearStart (year : Int) : Int :=
  365 * year + (year + 3) / 4 - (year + 99) / 100 + (year + 399) / 400

def monthLengths (leap : Bool) : List Nat :=
  [31, if leap then 29 else 28, 31, 30, 31, 30, 31, 31, 30, 31, 30, 31]

structure Date where
  year : Int
  month : Nat
  day : Nat
  deriving Repr, DecidableEq

namespace Date

def monthLength (year : Int) (month : Nat) : Nat :=
  if month = 0 then 0 else (monthLengths (isLeapYear year)).getD (month - 1) 0

def IsReal (d : Date) : Prop := 1 ≤ d.day ∧ d.day ≤ monthLength d.year d.month

instance (d : Date) : Decidable d.IsReal := inferInstanceAs (Decidable (_ ∧ _))

def daysBefore (year : Int) (month : Nat) : Nat :=
  ((monthLengths (isLeapYear year)).take (month - 1)).foldl (· + ·) 0

def dayNumber (d : Date) : Int := yearStart d.year + daysBefore d.year d.month + d.day - 1

end Date

def yearOf (day : Int) : Int :=
  let guess := 400 * day / 146097
  if day < yearStart guess then guess - 1
  else if yearStart (guess + 1) ≤ day then guess + 1
  else guess

/-- The month and the day of the month, from the months that are left, the number of the first of
them, and the days counted from its start. -/
def monthAndDay : List Nat → Nat → Nat → Nat × Nat
  | [], month, days => (month, days + 1)
  | length :: rest, month, days =>
    if days < length then (month, days + 1) else monthAndDay rest (month + 1) (days - length)

def Date.ofDayNumber (day : Int) : Date :=
  let year := yearOf day
  let (month, dayOfMonth) :=
    monthAndDay (monthLengths (isLeapYear year)) 1 (day - yearStart year).toNat
  ⟨year, month, dayOfMonth⟩

end RetirementLedger.Calendar

import RetirementLedger.Instant.Basic
import RetirementLedger.Text.Blank
import RetirementLedger.Text.Numeral

namespace RetirementLedger.Instant
open Text Calendar

def fractionChars (nanos : Nat) : List Char :=
  if nanos = 0 then []
  else '.' :: ((padded 9 nanos).reverse.dropWhile (· == '0')).reverse

def offsetChars (offset : Int) : List Char :=
  if offset = 0 then ['Z']
  else
    let minutes := offset.natAbs / 60
    (if offset < 0 then '-' else '+') :: (padded 2 (minutes / 60) ++ ':' :: padded 2 (minutes % 60))

def unwritable : String := "The year component cannot be formatted into the requested format."

def isWritable (t : Instant) : Bool :=
  0 ≤ t.localDate.year && t.localDate.year ≤ 9999 && t.offset % 60 == 0 &&
    t.offset.natAbs < 86400

def rfc3339Chars (t : Instant) : List Char :=
  let date := t.localDate
  let nanos := t.nanoOfDay
  let seconds := nanos / 1000000000
  padded 4 date.year.toNat ++ '-' :: padded 2 date.month ++ '-' :: padded 2 date.day ++
    'T' :: padded 2 (seconds / 3600) ++ ':' :: padded 2 (seconds / 60 % 60) ++
    ':' :: padded 2 (seconds % 60) ++ fractionChars (nanos % 1000000000) ++ offsetChars t.offset

def rfc3339? (t : Instant) : Option String :=
  if t.isWritable then some (String.ofList t.rfc3339Chars) else none

def fixedDigits? (count : Nat) (cs : List Char) : Option (Nat × List Char) :=
  let ds := cs.take count
  if ds.length = count ∧ ds.all isDigit then some (digitsValue ds, cs.drop count) else none

def symbol? (p : Char → Bool) : List Char → Option (List Char)
  | c :: rest => if p c then some rest else none
  | [] => none

def isAscii (c : Char) : Bool := c.toNat < 0x80

/-- The nanoseconds that fraction digits denote, nine of which count. -/
def fractionNanos (ds : List Char) : Nat :=
  let kept := ds.take 9
  digitsValue kept * Nat.pow 10 (9 - kept.length)

def fraction? : List Char → Option (Nat × List Char)
  | '.' :: rest =>
    let ds := rest.takeWhile isDigit
    if ds.isEmpty then none else some (fractionNanos ds, rest.dropWhile isDigit)
  | cs => some (0, cs)

def offset? : List Char → Option Int
  | ['Z'] | ['z'] => some 0
  | sign :: rest => do
    let factor : Int ← if sign = '+' then some 1 else if sign = '-' then some (-1) else none
    let (hours, rest) ← fixedDigits? 2 rest
    let rest ← symbol? (· == ':') rest
    let (minutes, rest) ← fixedDigits? 2 rest
    if hours < 24 ∧ minutes < 60 ∧ rest.isEmpty then
      some (factor * (hours * 3600 + minutes * 60 : Nat))
    else none
  | [] => none

def isMonthEnd (second : Int) : Bool :=
  second % daySeconds = daySeconds - 1 &&
    (Date.ofDayNumber ((second + 1) / daySeconds + epochDay)).day = 1

def date? (cs : List Char) : Option (Date × List Char) := do
  let (year, cs) ← fixedDigits? 4 cs
  let cs ← symbol? (· == '-') cs
  let (month, cs) ← fixedDigits? 2 cs
  let cs ← symbol? (· == '-') cs
  let (day, cs) ← fixedDigits? 2 cs
  let date : Date := ⟨year, month, day⟩
  if date.IsReal then some (date, cs) else none

def timeOfDay? (cs : List Char) : Option ((Nat × Nat × Nat) × List Char) := do
  let (hour, cs) ← fixedDigits? 2 cs
  let cs ← symbol? (· == ':') cs
  let (minute, cs) ← fixedDigits? 2 cs
  let cs ← symbol? (· == ':') cs
  let (second, cs) ← fixedDigits? 2 cs
  if hour < 24 ∧ minute < 60 ∧ second ≤ 60 then some ((hour, minute, second), cs) else none

/-- The instant of a local date, time and offset. A leap second counts as the last nanosecond of
the second before it. -/
def ofParts? (date : Date) (hour minute second fraction : Nat) (offset : Int) : Option Instant :=
  let seconds : Int :=
    (date.dayNumber - epochDay) * daySeconds + (hour * 3600 + minute * 60 + min second 59 : Nat) -
      offset
  if second < 60 then of? (seconds * secondNanos + fraction) offset
  else if isMonthEnd seconds then of? (seconds * secondNanos + (secondNanos - 1)) offset
  else none

def ofRfc3339Chars? (cs : List Char) : Option Instant := do
  let (date, cs) ← date? cs
  let cs ← symbol? isAscii cs
  let ((hour, minute, second), cs) ← timeOfDay? cs
  let (fraction, cs) ← fraction? cs
  let offset ← offset? cs
  ofParts? date hour minute second fraction offset

def ofRfc3339? (s : String) : Option Instant := ofRfc3339Chars? s.toList

def ofSecondsChars? (cs : List Char) : Option Instant := do ofUnixSeconds? (← signed? cs)

def ofText? (s : String) : Option Instant :=
  let cs := trimChars s.toList
  ofRfc3339Chars? cs <|> ofSecondsChars? cs

end RetirementLedger.Instant

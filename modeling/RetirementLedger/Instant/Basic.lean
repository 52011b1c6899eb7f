import RetirementLedger.Calendar
import RetirementLedger.Failure

namespace RetirementLedger

def secondNanos : Int := 1000000000

def milliNanos : Int := 1000000

def daySeconds : Int := 86400

def epochDay : Int := 719528

def firstLocalNano : Int := (Calendar.yearStart (-9999) - epochDay) * daySeconds * secondNanos

def lastLocalNano : Int := (Calendar.yearStart 10000 - epochDay) * daySeconds * secondNanos - 1

def maxOffset : Int := 93599

/-- A point of time together with an offset from UTC in seconds. -/
structure Instant where
  nanos : Int
  offset : Int
  offset_bound : -maxOffset ≤ offset ∧ offset ≤ maxOffset
  local_bound : firstLocalNano ≤ nanos + offset * secondNanos ∧
    nanos + offset * secondNanos ≤ lastLocalNano
  deriving DecidableEq

namespace Instant

def of? (nanos offset : Int) : Option Instant :=
  if h : -maxOffset ≤ offset ∧ offset ≤ maxOffset then
    if g : firstLocalNano ≤ nanos + offset * secondNanos ∧
        nanos + offset * secondNanos ≤ lastLocalNano then
      some ⟨nanos, offset, h, g⟩
    else none
  else none

def epoch : Instant := ⟨0, 0, by decide, by decide⟩

instance : Inhabited Instant := ⟨epoch⟩

def localNanos (t : Instant) : Int := t.nanos + t.offset * secondNanos

def localDay (t : Instant) : Int := t.localNanos / (daySeconds * secondNanos) + epochDay

def localDate (t : Instant) : Calendar.Date := Calendar.Date.ofDayNumber t.localDay

def nanoOfDay (t : Instant) : Nat := (t.localNanos % (daySeconds * secondNanos)).toNat

def nanoOfSecond (t : Instant) : Int := t.nanos % secondNanos

def unixMillis (t : Instant) : Int := t.nanos.tdiv milliNanos

def unixMillis64 (t : Instant) : Int64 := .ofIntClamp t.unixMillis

def firstMilli : Int := -377705116800000

def lastMilli : Int := 253402300799999

def ofUnixMillis? (millis : Int) : Option Instant := of? (millis * milliNanos) 0

def millisFailure (millis : Int) : Failure :=
  .persistence ("invalid timestamp " ++ toString millis ++ ": timestamp was not in range")

def ofUnixMillis (millis : Int) : Except Failure Instant :=
  match ofUnixMillis? millis with
  | some t => .ok t
  | none => .error (millisFailure millis)

def ofUnixSeconds? (seconds : Int) : Option Instant := of? (seconds * secondNanos) 0

/-- The same offset and the nearest whole millisecond that is not later. -/
def truncateToMillis (t : Instant) : Instant :=
  (of? (t.nanos - t.nanoOfSecond % milliNanos) t.offset).getD t

def advance? (t : Instant) (nanos : Int) : Option Instant := of? (t.nanos + nanos) t.offset

def withOffset? (t : Instant) (offset : Int) : Option Instant := of? t.nanos offset

end Instant

end RetirementLedger

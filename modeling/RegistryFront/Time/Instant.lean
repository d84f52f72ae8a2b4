import RegistryFront.Time.Calendar

/-!
# Instants

A day, the second of the day and the nanosecond of the second.  In the last second of a minute the
nanoseconds may run past a billion: that is a leap second.
-/

namespace RegistryFront.Time

def secondsPerDay : Nat := 86400

def billion : Nat := 1000000000

structure Instant where
  day : Int
  second : Nat
  nano : Nat
  day_ge : Calendar.minDay ≤ day
  day_le : day ≤ Calendar.maxDay
  second_lt : second < secondsPerDay
  nano_lt : nano < 2 * billion
  leap : billion ≤ nano → second % 60 = 59
  deriving DecidableEq

namespace Instant

def make? (day : Int) (second nano : Nat) : Option Instant :=
  if h : (Calendar.minDay ≤ day ∧ day ≤ Calendar.maxDay) ∧ second < secondsPerDay ∧
      nano < 2 * billion ∧ (billion ≤ nano → second % 60 = 59) then
    some ⟨day, second, nano, h.1.1, h.1.2, h.2.1, h.2.2.1, h.2.2.2⟩
  else none

def epoch : Instant :=
  ⟨0, 0, 0, by decide, by decide, by decide, by decide, by decide⟩

instance : Inhabited Instant := ⟨epoch⟩

/-- Seconds since the epoch, leap seconds not counted. -/
def unixSeconds (t : Instant) : Int := t.day * secondsPerDay + t.second

def ofUnix? (seconds : Int) (nano : Nat) : Option Instant :=
  make? (seconds / secondsPerDay) (seconds % secondsPerDay).toNat nano

/-- The instant that many seconds and nanoseconds later; a leap second counts as the second before. -/
def addSeconds? (t : Instant) (seconds : Int) : Option Instant :=
  ofUnix? (t.unixSeconds + seconds) (t.nano % billion)

def addDays? (t : Instant) (days : Nat) : Option Instant :=
  make? (t.day + days) t.second (if days = 0 then t.nano else t.nano % billion)

def notAfter (a b : Instant) : Bool :=
  if a.day ≠ b.day then a.day < b.day
  else if a.second ≠ b.second then a.second < b.second
  else a.nano ≤ b.nano

end Instant

end RegistryFront.Time

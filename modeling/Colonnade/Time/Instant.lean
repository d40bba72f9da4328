import Colonnade.Time.Calendar

/-!
# Instants

An instant is a second, counted from the first day of the calendar, and nanoseconds within it. In a
leap second the nanoseconds of the second before it run on to two thousand million, so instants are
ordered by second first.
-/

namespace Colonnade.Time

/-- A point in time. -/
structure Instant where
  second : Int
  nano : Nat
deriving DecidableEq, Repr, Inhabited

namespace Instant

/-- Whether an instant is before another. -/
def Before (a b : Instant) : Prop := a.second < b.second ∨ (a.second = b.second ∧ a.nano < b.nano)

instance (a b : Instant) : Decidable (a.Before b) :=
  inferInstanceAs (Decidable (a.second < b.second ∨ (a.second = b.second ∧ a.nano < b.nano)))

/-- The seconds of a day. -/
def secondsPerDay : Int := 86400

/-- The nanoseconds of a second. -/
def nanosPerSecond : Int := 1000000000

/-- The first instant of a second. -/
def startOf (second : Int) : Instant := ⟨second, 0⟩

/-- The last instant before a second that is a whole number of microseconds. -/
def lastBefore (second : Int) : Instant := ⟨second - 1, 999999000⟩

/-- The instant of a day and a time of day. -/
def ofCivil (year month day hour minute second : Int) (nano : Nat) : Instant :=
  ⟨secondsPerDay * dayOf year month day + 3600 * hour + 60 * minute + second, nano⟩

/-- The last year of the calendar. -/
def lastYear : Int := 262142

/-- The last instant of the calendar outside leap seconds. -/
def latest : Instant := ofCivil lastYear 12 31 23 59 59 999999999

/-- The second of the day. -/
def secondOfDay (t : Instant) : Int := t.second % secondsPerDay

/-- The nanoseconds from one instant to another. A leap second counts if it lies between the two
times of day. -/
def elapsed (a b : Instant) : Int :=
  let leap : Int :=
    if a.secondOfDay < b.secondOfDay ∧ nanosPerSecond ≤ a.nano then 1
    else if b.secondOfDay < a.secondOfDay ∧ nanosPerSecond ≤ b.nano then -1
    else 0
  nanosPerSecond * (b.second - a.second + leap) + (b.nano - a.nano)

end Instant

end Colonnade.Time

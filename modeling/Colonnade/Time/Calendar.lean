/-!
# The calendar

Days and months are counted from the first day of the year 1 of the Gregorian calendar, extended to
all years. A month is the number of months before it, so months are in the order of their numbers
and the next month is the next number.
-/

namespace Colonnade.Time

/-! ## Days and years -/

/-- The days before a year. -/
def yearStart (year : Int) : Int :=
  365 * (year - 1) + (year - 1) / 4 - (year - 1) / 100 + (year - 1) / 400

/-- Whether a year has a leap day. -/
def isLeap (year : Int) : Bool := year % 4 = 0 && (year % 100 ≠ 0 || year % 400 = 0)

/-- The days of a year before its month of a number from zero. -/
def daysBefore (leap : Bool) (month : Int) : Int :=
  let leapDay : Int := if leap then 1 else 0
  if month ≤ 0 then 0
  else if month = 1 then 31
  else if month = 2 then 59 + leapDay
  else if month = 3 then 90 + leapDay
  else if month = 4 then 120 + leapDay
  else if month = 5 then 151 + leapDay
  else if month = 6 then 181 + leapDay
  else if month = 7 then 212 + leapDay
  else if month = 8 then 243 + leapDay
  else if month = 9 then 273 + leapDay
  else if month = 10 then 304 + leapDay
  else if month = 11 then 334 + leapDay
  else 365 + leapDay

/-- The year of a day: the mean length of a year gives it, or one of its neighbours. -/
def yearOf (day : Int) : Int :=
  let year := 400 * day / 146097 + 1
  if day < yearStart year then year - 1
  else if yearStart (year + 1) ≤ day then year + 1
  else year

/-- The month, from zero, of a day of a year: the last month that does not start after it. -/
def monthInYear (leap : Bool) (dayOfYear : Int) : Int :=
  if dayOfYear < daysBefore leap 1 then 0
  else if dayOfYear < daysBefore leap 2 then 1
  else if dayOfYear < daysBefore leap 3 then 2
  else if dayOfYear < daysBefore leap 4 then 3
  else if dayOfYear < daysBefore leap 5 then 4
  else if dayOfYear < daysBefore leap 6 then 5
  else if dayOfYear < daysBefore leap 7 then 6
  else if dayOfYear < daysBefore leap 8 then 7
  else if dayOfYear < daysBefore leap 9 then 8
  else if dayOfYear < daysBefore leap 10 then 9
  else if dayOfYear < daysBefore leap 11 then 10
  else 11

/-! ## Months -/

/-- The year of a month. -/
def yearOfMonth (month : Int) : Int := month / 12 + 1

/-- The first day of a month. -/
def monthStart (month : Int) : Int :=
  yearStart (yearOfMonth month) + daysBefore (isLeap (yearOfMonth month)) (month % 12)

/-- The month of a day. -/
def monthOf (day : Int) : Int :=
  let year := yearOf day
  12 * (year - 1) + monthInYear (isLeap year) (day - yearStart year)

/-- The day with a year, a month and a day of the month, both counted from one. -/
def dayOf (year month day : Int) : Int := monthStart (12 * (year - 1) + month - 1) + day - 1

/-! ## Texts -/

/-- A number with zeros in front up to a width. -/
def padded (width n : Nat) : String :=
  let digits := toString n
  "".pushn '0' (width - digits.length) ++ digits

/-- The text of a year: four digits, and with a sign if four digits do not say it. -/
def yearText (year : Int) : String :=
  if year < 0 then "-" ++ padded 4 year.natAbs
  else if 9999 < year then "+" ++ padded 4 year.natAbs
  else padded 4 year.natAbs

/-- The text of a day. -/
def dayText (day : Int) : String :=
  let month := monthOf day
  yearText (yearOfMonth month) ++ "-" ++ padded 2 (month % 12 + 1).toNat ++ "-"
    ++ padded 2 (day - monthStart month + 1).toNat

end Colonnade.Time

import Colonnade.Time.Shards
import Mathlib.Logic.Basic
import Mathlib.Order.Monotone.Basic

/-!
# The buckets of the calendar

`yearOf` and `monthOf` look a day up by estimate and by table. Here both are shown to find the year
and the month that hold the day, so that minutes, hours, days and months are four divisions of time
of one kind: `Division.Lawful` says that buckets follow one another without a gap, and
`Division.Nested` that a coarse bucket is made of whole fine ones.

The last month of the calendar has no next one, so months are lawful before `calendarEnd` only.
-/

namespace Colonnade.Time

/-! ## Years -/

/-- A year has 365 days, a leap year one more. -/
theorem yearStart_succ (year : Int) :
    yearStart (year + 1) = yearStart year + 365 + if isLeap year then 1 else 0 := by
  unfold yearStart isLeap
  split <;> rename_i h <;> simp at h <;> omega

/-- The first day of a year is less than two days off the mean. -/
theorem yearStart_near_mean (year : Int) :
    146097 * (year - 1) - 591 ≤ 400 * yearStart year ∧
      400 * yearStart year ≤ 146097 * (year - 1) + 288 := by
  unfold yearStart
  omega

theorem yearOf_spec (day : Int) :
    yearStart (yearOf day) ≤ day ∧ day < yearStart (yearOf day + 1) := by
  -- the estimate can be one year off in either direction, so three neighbours bound the day
  have h0 := yearStart_near_mean (400 * day / 146097)
  have h1 := yearStart_near_mean (400 * day / 146097 + 1)
  have h3 := yearStart_near_mean (400 * day / 146097 + 1 + 1 + 1)
  have e : 400 * day / 146097 + 1 - 1 = 400 * day / 146097 := by omega
  simp only [yearOf]
  split
  · rw [e]; omega
  · split <;> omega

/-! ## Months of a year -/

@[simp] theorem daysBefore_zero (leap : Bool) : daysBefore leap 0 = 0 := by simp [daysBefore]

theorem daysBefore_twelve (leap : Bool) : daysBefore leap 12 = 365 + if leap then 1 else 0 := by
  simp [daysBefore]

/-- A month has 28 days or more. -/
theorem daysBefore_add_le (leap : Bool) {month : Int} (h0 : 0 ≤ month) (h1 : month < 12) :
    daysBefore leap month + 28 ≤ daysBefore leap (month + 1) := by
  have h : month = 0 ∨ month = 1 ∨ month = 2 ∨ month = 3 ∨ month = 4 ∨ month = 5 ∨ month = 6
      ∨ month = 7 ∨ month = 8 ∨ month = 9 ∨ month = 10 ∨ month = 11 := by omega
  rcases h with h | h | h | h | h | h | h | h | h | h | h | h <;> subst h <;> cases leap <;> decide

theorem monthInYear_spec {leap : Bool} {day : Int} (h0 : 0 ≤ day) (h1 : day < daysBefore leap 12) :
    (0 ≤ monthInYear leap day ∧ monthInYear leap day < 12) ∧
      daysBefore leap (monthInYear leap day) ≤ day ∧
      day < daysBefore leap (monthInYear leap day + 1) := by
  rw [← daysBefore_zero leap] at h0
  generalize hm : monthInYear leap day = month
  unfold monthInYear at hm
  repeat' (rw [ite_eq_iff] at hm; rcases hm with ⟨_, hm⟩ | ⟨_, hm⟩)
  all_goals subst hm; exact ⟨by decide, by omega, by simp only [Int.reduceAdd]; omega⟩

/-! ## Months -/

/-- The next month starts where the days of a month end, also over the turn of the year. -/
theorem monthStart_succ (month : Int) :
    monthStart (month + 1) =
      yearStart (yearOfMonth month)
        + daysBefore (isLeap (yearOfMonth month)) (month % 12 + 1) := by
  by_cases h : month % 12 = 11
  · have hy : yearOfMonth (month + 1) = yearOfMonth month + 1 := by unfold yearOfMonth; omega
    have hm : (month + 1) % 12 = 0 := by omega
    have hd : (11 + 1 : Int) = 12 := rfl
    rw [monthStart, hy, hm, h, hd, daysBefore_zero, daysBefore_twelve, yearStart_succ]
    omega
  · have hy : yearOfMonth (month + 1) = yearOfMonth month := by unfold yearOfMonth; omega
    have hm : (month + 1) % 12 = month % 12 + 1 := by omega
    rw [monthStart, hy, hm]

theorem monthStart_add_le (month : Int) : monthStart month + 28 ≤ monthStart (month + 1) := by
  have h0 : 0 ≤ month % 12 := by omega
  have h := daysBefore_add_le (isLeap (yearOfMonth month)) h0 (by omega)
  rw [monthStart_succ, monthStart]
  omega

theorem monthOf_spec (day : Int) :
    monthStart (monthOf day) ≤ day ∧ day < monthStart (monthOf day + 1) := by
  obtain ⟨hle, hlt⟩ := yearOf_spec day
  rw [yearStart_succ] at hlt
  rw [Int.add_assoc, ← daysBefore_twelve] at hlt
  obtain ⟨⟨h0, h12⟩, hm, hn⟩ := monthInYear_spec (Int.sub_nonneg_of_le hle)
    (Int.sub_left_lt_of_lt_add hlt)
  have hy : yearOfMonth (monthOf day) = yearOf day := by
    simp only [yearOfMonth, monthOf]; omega
  have hr : monthOf day % 12
      = monthInYear (isLeap (yearOf day)) (day - yearStart (yearOf day)) := by
    simp only [monthOf]; omega
  rw [monthStart_succ, monthStart, hy, hr]
  omega

/-! ## Divisions -/

/-- Buckets follow one another without a gap, and each second is in the bucket of its number. The
end of a bucket is the start of the next one before a limit. -/
structure Division.Lawful (d : Division) (limit : Int) : Prop where
  start_le : ∀ t, d.start (d.bucket t) ≤ t
  lt_next : ∀ t, t < d.start (d.bucket t + 1)
  start_lt : ∀ b, d.start b < d.start (b + 1)
  stop_eq : ∀ {t}, t < limit → d.stop t = d.start (d.bucket t + 1)

namespace Division.Lawful

variable {d : Division} {limit : Int}

theorem start_lt_start_iff (h : d.Lawful limit) {a b : Int} : d.start a < d.start b ↔ a < b :=
  (strictMono_int_of_lt_succ h.start_lt).lt_iff_lt

theorem start_le_start_iff (h : d.Lawful limit) {a b : Int} : d.start a ≤ d.start b ↔ a ≤ b :=
  (strictMono_int_of_lt_succ h.start_lt).le_iff_le

/-- A second is in a bucket or a later one when it is not before its start. -/
theorem le_bucket_iff (h : d.Lawful limit) {b t : Int} : b ≤ d.bucket t ↔ d.start b ≤ t := by
  constructor
  · intro hb
    exact (h.start_le_start_iff.2 hb).trans (h.start_le t)
  · intro ht
    have hlt : d.start b < d.start (d.bucket t + 1) := lt_of_le_of_lt ht (h.lt_next t)
    have := h.start_lt_start_iff.1 hlt
    omega

theorem bucket_lt_iff (h : d.Lawful limit) {b t : Int} : d.bucket t < b ↔ t < d.start b := by
  rw [← not_le, h.le_bucket_iff, not_le]

theorem bucket_start (h : d.Lawful limit) (b : Int) : d.bucket (d.start b) = b := by
  have h1 : b ≤ d.bucket (d.start b) := h.le_bucket_iff.2 le_rfl
  have h2 : d.bucket (d.start b) < b + 1 := h.bucket_lt_iff.2 (h.start_lt b)
  omega

/-- The last second before a bucket is in the bucket before it. -/
theorem bucket_pred_start (h : d.Lawful limit) (b : Int) : d.bucket (d.start b - 1) = b - 1 := by
  have h1 : d.bucket (d.start b - 1) < b := h.bucket_lt_iff.2 (by omega)
  have h2 : b - 1 ≤ d.bucket (d.start b - 1) := by
    rw [h.le_bucket_iff]
    have := h.start_lt (b - 1)
    rw [Int.sub_add_cancel] at this
    omega
  omega

theorem bucket_mono (h : d.Lawful limit) {s t : Int} (hst : s ≤ t) : d.bucket s ≤ d.bucket t :=
  h.le_bucket_iff.2 ((h.start_le s).trans hst)

end Division.Lawful

theorem Division.every_lawful {seconds : Int} (h : 0 < seconds) (limit : Int) :
    (every seconds).Lawful limit where
  start_le t := Int.mul_ediv_self_le h.ne'
  lt_next t := by
    have := Int.lt_mul_ediv_self_add (x := t) h
    simp only [every, Int.mul_add, Int.mul_one]; omega
  start_lt b := by simp only [every, Int.mul_add, Int.mul_one]; omega
  stop_eq _ := rfl

/-- The first second of the last month of the calendar. -/
def calendarEnd : Int := Instant.secondsPerDay * monthStart Division.lastMonth

theorem Division.month_lawful : month.Lawful calendarEnd where
  start_le t := by
    have := (monthOf_spec (t / Instant.secondsPerDay)).1
    simp only [month, Instant.secondsPerDay] at *; omega
  lt_next t := by
    have := (monthOf_spec (t / Instant.secondsPerDay)).2
    simp only [month, Instant.secondsPerDay] at *; omega
  start_lt b := by
    have := monthStart_add_le b
    simp only [month, Instant.secondsPerDay]; omega
  stop_eq {t} ht := by
    have hs : StrictMono monthStart :=
      strictMono_int_of_lt_succ fun b => by have := monthStart_add_le b; omega
    have hm := (monthOf_spec (t / Instant.secondsPerDay)).1
    have hb : monthOf (t / Instant.secondsPerDay) < lastMonth := by
      apply hs.lt_iff_lt.1
      simp only [calendarEnd, Instant.secondsPerDay] at *
      omega
    simp only [month, if_pos hb]

/-! ## Divisions inside divisions -/

/-- The coarse division cuts time only where the fine one does. -/
structure Division.Nested (fine coarse : Division) (limit : Int) : Prop where
  fineLawful : fine.Lawful limit
  coarseLawful : coarse.Lawful limit
  boundary : ∀ b, fine.start (fine.bucket (coarse.start b)) = coarse.start b

theorem Division.Lawful.nested_self {d : Division} {limit : Int} (h : d.Lawful limit) :
    d.Nested d limit where
  fineLawful := h
  coarseLawful := h
  boundary b := by rw [h.bucket_start]

theorem Division.Nested.trans {fine middle coarse : Division} {limit : Int}
    (h : fine.Nested middle limit) (h' : middle.Nested coarse limit) : fine.Nested coarse limit where
  fineLawful := h.fineLawful
  coarseLawful := h'.coarseLawful
  boundary b := by rw [← h'.boundary b, h.boundary]

theorem Division.every_nested {short long : Int} (hs : 0 < short) (hl : 0 < long)
    (hd : short ∣ long) (limit : Int) : (every short).Nested (every long) limit where
  fineLawful := every_lawful hs limit
  coarseLawful := every_lawful hl limit
  boundary b := Int.mul_ediv_cancel' (Int.dvd_trans hd (Int.dvd_mul_right long b))

theorem Division.minute_nested_hour : minute.Nested hour calendarEnd :=
  every_nested (by decide) (by decide) (by decide) _

theorem Division.hour_nested_day : hour.Nested day calendarEnd :=
  every_nested (by decide) (by decide) (by decide) _

theorem Division.day_nested_month : day.Nested month calendarEnd where
  fineLawful := every_lawful (by decide) _
  coarseLawful := month_lawful
  boundary b := Int.mul_ediv_cancel' (Int.dvd_mul_right _ _)

end Colonnade.Time

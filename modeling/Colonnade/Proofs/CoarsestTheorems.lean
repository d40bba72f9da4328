import Colonnade.Proofs.ShardTheorems

/-!
# The shards of a range are the coarsest that fit

Each pass sees a span that the pass before has narrowed. Whether an hour, a day or a month lies in
that span and whether it lies in the range as a whole is the same question
(`Division.Nested.inside_iff`), so what covers a minute can be read off the range alone
(`between_uses_coarsest_buckets`).
-/

namespace Colonnade.Time

open Instant

/-! ## Buckets in a range -/

/-- Whether the bucket of a second lies in a range: its first instant does and its last
microsecond. -/
def Span.HoldsBucket (s : Span) (d : Division) (t : Int) : Prop :=
  s.Holds (startOf (d.start (d.bucket t))) ∧ s.Holds (lastBefore (d.start (d.bucket t + 1)))

instance (s : Span) (d : Division) (t : Int) : Decidable (s.HoldsBucket d t) :=
  inferInstanceAs (Decidable (_ ∧ _))

/-- A range that ends before it starts holds nothing. -/
theorem Span.not_holds {s : Span} (h : s.last.Before s.first) (t : Instant) : ¬ s.Holds t := by
  simp only [Span.Holds, Before] at *
  omega

theorem Span.holds_startOf_iff {first : Int} {last : Instant} {t : Int} :
    (Span.mk (startOf first) last).Holds (startOf t) ↔ first ≤ t ∧ t ≤ last.second := by
  rw [Span.Holds, before_startOf_iff, before_startOf_iff, not_lt, not_lt]
  exact Iff.rfl

/-- The last microsecond of a bucket lies in a range that has reached its end. -/
theorem Span.holds_lastBefore_iff {first : Int} {last : Instant} {t : Int} :
    (Span.mk (startOf first) last).Holds (lastBefore t) ↔ first < t ∧ t ≤ last.reach := by
  rw [Span.Holds, before_startOf_iff, before_lastBefore_iff, not_lt, not_lt, lastBefore]
  exact and_congr_left' Int.le_sub_one_iff

theorem Division.Lawful.holdsBucket_iff {d : Division} {limit : Int} (h : d.Lawful limit)
    {first : Int} {last : Instant} (t : Int) :
    (Span.mk (startOf first) last).HoldsBucket d t ↔ d.Inside first last.reach t := by
  have hlt := h.start_lt (d.bucket t)
  have hreach := last.reach_le
  rw [Span.HoldsBucket, Span.holds_startOf_iff, Span.holds_lastBefore_iff, Division.Inside]
  omega

/-! ## The coarsest bucket -/

theorem within_pos_iff {a b t : Int} : 0 < within a b t ↔ a ≤ t ∧ t < b := by
  unfold within
  split <;> simp_all

/-- A pass covers what it was handed and does not leave. -/
theorem pos_iff_of_add_within {n : Nat} {a b a' b' t : Int}
    (h : n + within a' b' t = within a b t) :
    0 < n ↔ (a ≤ t ∧ t < b) ∧ ¬ (a' ≤ t ∧ t < b') := by
  unfold within at h
  split_ifs at h <;> omega

/-- A range that is not over before it starts begins with a minute and ends before the last month of
the calendar: with the last microsecond of a minute, or at the present. -/
theorem Shards.range_ends {a b now : Instant} (ha : a.second < calendarEnd)
    (hb : b.second < calendarEnd)
    (hsome : ¬ (Shards.range a b now).last.Before (Shards.range a b now).first) :
    ∃ first, (Shards.range a b now).first = startOf first ∧
      Division.minute.start (Division.minute.bucket first) = first ∧
      first ≤ (Shards.range a b now).last.second ∧
      ((Shards.range a b now).last = now ∨ (Shards.range a b now).last.nano = 999999000) ∧
      (Shards.range a b now).last.second ≤ now.second ∧
      (Shards.range a b now).last.second < calendarEnd := by
  rw [Shards.range_eq] at hsome ⊢
  have hminute := Division.minute_nested_hour.fineLawful
  refine ⟨Division.minute.start (Division.minute.bucket (a.earlier b).second), rfl,
    by rw [hminute.bucket_start], not_lt.1 fun hlt => hsome (before_startOf_iff.2 hlt), ?_⟩
  have hlater : (a.later b).second < calendarEnd := by rw [later]; split <;> assumption
  have hend : (Division.minute.last (a.later b)).second < calendarEnd := by
    simp only [Division.last, Division.minute, Division.every, lastBefore, calendarEnd,
      secondsPerDay] at *
    omega
  simp only [earlier]
  split
  · next hbefore =>
    simp only [Before] at hbefore
    exact ⟨.inl rfl, le_rfl, by omega⟩
  · next hbefore =>
    simp only [Before] at hbefore
    exact ⟨.inr rfl, by omega, hend⟩

/-- A range that is not over before it starts begins with a minute and ends before the last month of
the calendar, not behind the last microsecond of a second. -/
theorem Shards.range_bounds {a b now : Instant} (micro : now.nano % 1000 = 0)
    (noLeap : now.nano < 1000000000) (ha : a.second < calendarEnd) (hb : b.second < calendarEnd)
    (hsome : ¬ (Shards.range a b now).last.Before (Shards.range a b now).first) :
    ∃ first, (Shards.range a b now).first = startOf first ∧
      Division.minute.start (Division.minute.bucket first) = first ∧
      first ≤ (Shards.range a b now).last.second ∧
      (Shards.range a b now).last.nano ≤ 999999000 ∧
      (Shards.range a b now).last.second < calendarEnd := by
  obtain ⟨first, hfirst, hminute, hle, hnano, -, hlim⟩ := Shards.range_ends ha hb hsome
  refine ⟨first, hfirst, hminute, hle, ?_, hlim⟩
  rcases hnano with hnow | hnano
  · rw [hnow]
    omega
  · exact hnano.le

/-- **A range is covered by the coarsest buckets that fit.** A minute of the range is covered by a
minute shard if its hour does not lie in the range, by an hour shard if its hour does but not its
day, by a day shard if its day does but not its month, by a month shard if its month does, and by a
shard of a division in no other case. -/
theorem between_uses_coarsest_buckets {a b now : Instant} (micro : now.nano % 1000 = 0)
    (noLeap : now.nano < 1000000000) (ha : a.second < calendarEnd) (hb : b.second < calendarEnd)
    (minute : Int) :
    let range : Span := ⟨Division.minute.first (a.earlier b),
      (Division.minute.last (a.later b)).earlier now⟩
    let shards := Shards.between a b now
    (0 < Division.minute.coverage shards.minutes (60 * minute) ↔
      range.Holds (.startOf (60 * minute)) ∧ ¬ range.HoldsBucket .hour (60 * minute)) ∧
    (0 < Division.hour.coverage shards.hours (60 * minute) ↔
      range.HoldsBucket .hour (60 * minute) ∧ ¬ range.HoldsBucket .day (60 * minute)) ∧
    (0 < Division.day.coverage shards.days (60 * minute) ↔
      range.HoldsBucket .day (60 * minute) ∧ ¬ range.HoldsBucket .month (60 * minute)) ∧
    (0 < Division.month.coverage shards.months (60 * minute) ↔
      range.HoldsBucket .month (60 * minute)) := by
  intro range shards
  have hrange : Shards.range a b now = range := Shards.range_eq a b now
  have hshards : shards = Shards.ofSpan range := by rw [← hrange]; rfl
  by_cases hnone : range.last.Before range.first
  · have hempty : shards = {} := by rw [hshards, Shards.ofSpan, if_pos hnone]
    simp [hempty, Span.HoldsBucket, Span.not_holds hnone]
  obtain ⟨first, hfirst, hminute, hle, hn, hlim⟩ :=
    Shards.range_bounds micro noLeap ha hb (by rwa [hrange])
  rw [hrange] at hfirst hle hn hlim
  generalize range = range at *
  obtain ⟨_, last⟩ := range
  subst hfirst
  obtain ⟨a₁, b₁, a₂, b₂, a₃, b₃, hhour, hday, hmonth, hcover⟩ :=
    Shards.coverages_ofSpan hminute hle hn hlim
  obtain ⟨h₁, h₂, h₃, h₄⟩ := hcover (60 * minute)
  -- a bucket in what a pass was handed is a bucket in the range
  have hday' (t : Int) : a₂ ≤ t ∧ t < b₂ ↔ Division.day.Inside first last.reach t :=
    (hday t).trans (Division.hour_nested_day.inside_iff hhour t)
  have hmonth' (t : Int) : a₃ ≤ t ∧ t < b₃ ↔ Division.month.Inside first last.reach t :=
    (hmonth t).trans (Division.day_nested_month.inside_iff hday' t)
  have hlast : 60 * minute < Division.minute.start (Division.minute.bucket last.second + 1)
      ↔ 60 * minute ≤ last.second := by
    simp only [Division.minute, Division.every]
    omega
  rw [Span.holds_startOf_iff, Division.minute_nested_hour.coarseLawful.holdsBucket_iff,
    Division.hour_nested_day.coarseLawful.holdsBucket_iff, Division.month_lawful.holdsBucket_iff,
    hshards, pos_iff_of_add_within h₁, pos_iff_of_add_within h₂, pos_iff_of_add_within h₃,
    hlast, hhour, hday', hmonth']
  exact ⟨Iff.rfl, Iff.rfl, Iff.rfl, by rw [h₄, within_pos_iff, hmonth']⟩

/-- The last day of a year, before two whole months. -/
theorem between_uses_coarsest_buckets_december :
    let a : Instant := .ofCivil 2020 12 30 22 58 5 0
    let b : Instant := .ofCivil 2021 2 28 23 59 0 0
    let now : Instant := .ofCivil 2030 1 1 0 0 0 0
    let shards := Shards.between a b now
    let minute := (Instant.ofCivil 2020 12 31 12 0 0 0).second / 60
    now.nano % 1000 = 0 ∧ now.nano < 1000000000 ∧ a.second < calendarEnd ∧ b.second < calendarEnd ∧
      ¬ 0 < Division.minute.coverage shards.minutes (60 * minute) ∧
      ¬ 0 < Division.hour.coverage shards.hours (60 * minute) ∧
      0 < Division.day.coverage shards.days (60 * minute) ∧
      ¬ 0 < Division.month.coverage shards.months (60 * minute) := by
  intro a b now shards minute
  obtain ⟨hminute, hhour, hday, hmonth⟩ := @between_uses_coarsest_buckets a b now (by decide)
    (by decide) (by decide) (by decide) minute
  refine ⟨by decide, by decide, by decide, by decide, ?_, ?_, ?_, ?_⟩
  · rw [hminute]
    decide
  · rw [hhour]
    decide
  · rw [hday]
    decide
  · rw [hmonth]
    decide

end Colonnade.Time

import Colonnade.Proofs.CoarsestTheorems

/-!
# Shards stay between the bounds and the present

The bounds of a range may come in either order: both are rounded outwards before they are compared,
and again after they were swapped, and the range is the same (`between_comm`).

The present comes with nanoseconds, and buckets end with a microsecond. Behind the last microsecond
of an hour the present is not before the end of the hour and not at it either, so the first pass
takes the hour for one that ends later, and covers it up to the present as the back edge. Where the
range begins within that hour, this is its front edge as well (`Span.Overruns`). In all other cases
the shards cover each minute of the range once, whatever the clock reads, and so stay in it
(`between_staysIn_iff`).
-/

namespace Colonnade.Time

open Instant

/-! ## The order of the bounds -/

namespace Instant

theorem Before.asymm {a b : Instant} (h : a.Before b) : ¬ b.Before a := by
  simp only [Before] at *
  omega

theorem eq_of_not_before {a b : Instant} (hab : ¬ a.Before b) (hba : ¬ b.Before a) : a = b := by
  obtain ⟨second, nano⟩ := a
  obtain ⟨second', nano'⟩ := b
  simp only [Before, mk.injEq] at *
  omega

theorem earlier_comm (a b : Instant) : a.earlier b = b.earlier a := by
  unfold earlier
  split
  · next hba => rw [if_neg hba.asymm]
  · next hba =>
    split
    · rfl
    · next hab => exact eq_of_not_before hab hba

theorem later_comm (a b : Instant) : a.later b = b.later a := by
  unfold later
  split
  · next hba => rw [if_neg hba.asymm]
  · next hba =>
    split
    · rfl
    · next hab => exact eq_of_not_before hba hab

end Instant

/-- **The bounds may come in either order**, be they of one minute, next to each other or within a
leap second. -/
theorem between_comm (a b now : Instant) : Shards.between a b now = Shards.between b a now := by
  have hrange : Shards.range a b now = Shards.range b a now := by
    rw [Shards.range_eq, Shards.range_eq, earlier_comm, later_comm]
  rw [Shards.between, Shards.between, hrange]

/-! ## Buckets that start in a range -/

/-- Every bucket of the shards of a division starts in a range. -/
def Division.StartsIn (d : Division) (s : Span) (shards : List Shard) : Prop :=
  ∀ shard ∈ shards, ∀ b, shard.first ≤ b → b ≤ shard.last → s.Holds (startOf (d.start b))

/-- Every bucket starts in a range, and no minute lies in two shards of minutes. -/
structure Shards.StaysIn (shards : Shards) (s : Span) : Prop where
  minutes : Division.minute.StartsIn s shards.minutes
  hours : Division.hour.StartsIn s shards.hours
  days : Division.day.StartsIn s shards.days
  months : Division.month.StartsIn s shards.months
  once : ∀ minute, Division.minute.coverage shards.minutes (60 * minute) ≤ 1

theorem Shards.staysIn_empty (s : Span) : Shards.StaysIn {} s where
  minutes := by simp [Division.StartsIn]
  hours := by simp [Division.StartsIn]
  days := by simp [Division.StartsIn]
  months := by simp [Division.StartsIn]
  once := by simp

/-- Shards of a division that cover no minutes but those of a range start in it: their buckets start
with a minute, and cover that. -/
theorem Division.Nested.startsIn {d : Division} (hd : Division.minute.Nested d calendarEnd)
    {shards : List Shard} {first : Int} {last now : Instant} (hnow : last.second ≤ now.second)
    (hle : ∀ minute, d.coverage shards (60 * minute)
      ≤ within first (Division.minute.start (Division.minute.bucket last.second + 1))
          (60 * minute)) :
    d.StartsIn ⟨startOf first, now⟩ shards := by
  intro shard hmem b hfirst hlast
  have hd' := hd.coarseLawful
  have hminute : 60 * Division.minute.bucket (d.start b) = d.start b := hd.boundary b
  have hcovers : d.covers (d.start b) shard = true := by
    have h1 := hd'.start_le_start_iff.2 hfirst
    have h2 := hd'.start_lt_start_iff.2 (Int.lt_add_one_of_le hlast)
    simp [Division.covers, h1, h2]
  have hpos : 0 < d.coverage shards (d.start b) := List.countP_pos_iff.2 ⟨shard, hmem, hcovers⟩
  have hwithin := hle (Division.minute.bucket (d.start b))
  rw [hminute] at hwithin
  obtain ⟨hge, hlt⟩ := within_pos_iff.1 (hpos.trans_le hwithin)
  rw [Span.holds_startOf_iff]
  refine ⟨hge, le_trans ?_ hnow⟩
  simp only [Division.minute, Division.every] at hminute hlt
  omega

/-- Shards that cover the minutes of a range once stay in it. -/
theorem Shards.staysIn_of_coverage {shards : Shards} {first : Int} {last now : Instant}
    (hnow : last.second ≤ now.second)
    (h : ∀ minute, shards.coverage minute
      = within first (Division.minute.start (Division.minute.bucket last.second + 1))
          (60 * minute)) :
    shards.StaysIn ⟨startOf first, now⟩ := by
  simp only [coverage] at h
  have hminute := Division.minute_nested_hour.fineLawful.nested_self
  have hday := Division.minute_nested_hour.trans Division.hour_nested_day
  have hmonth := hday.trans Division.day_nested_month
  refine ⟨hminute.startsIn hnow fun minute => ?_,
    Division.minute_nested_hour.startsIn hnow fun minute => ?_,
    hday.startsIn hnow fun minute => ?_, hmonth.startsIn hnow fun minute => ?_, fun minute => ?_⟩
  · rw [← h minute]; omega
  · rw [← h minute]; omega
  · rw [← h minute]; omega
  · rw [← h minute]; omega
  · have hone := h minute
    unfold within at hone
    split at hone <;> omega

/-! ## Ranges inside an hour -/

/-- An instant inside a bucket that has not reached its end is the end of no coarser bucket. -/
theorem Division.Nested.ne_lastBefore {fine coarse : Division} {limit first : Int} {last : Instant}
    (h : fine.Nested coarse limit) (hle : first ≤ last.second)
    (hinside : last.reach < fine.start (fine.bucket first + 1)) (b : Int) :
    last ≠ lastBefore (coarse.start b) := by
  rintro rfl
  have hf := h.fineLawful
  rw [reach_lastBefore, ← h.boundary, hf.start_lt_start_iff] at hinside
  have hstart : fine.start (fine.bucket first) < coarse.start b := by
    have := hf.start_le first
    simp only [lastBefore] at hle
    omega
  rw [← h.boundary, hf.start_lt_start_iff] at hstart
  omega

theorem elapsed_startOf_le (first : Int) (last : Instant) :
    (startOf first).elapsed last ≤ nanosPerSecond * (last.second - first) + last.nano := by
  have hleap : ¬ nanosPerSecond ≤ ((startOf first).nano : Int) := by
    simp [startOf, nanosPerSecond]
  simp only [elapsed, hleap, and_false, if_false]
  split <;> simp only [startOf, nanosPerSecond] <;> omega

/-- A pass covers nothing of a range that is too short for it and does not end with its bucket. -/
theorem coverRest_of_short {fine coarse : Division} {length : Int} {s : Span}
    (hshort : s.first.elapsed s.last < nanosPerSecond * length)
    (hends : s.last ≠ fine.last s.first) : coverRest fine coarse length s = ([], s) := by
  have hnot : ¬ (s.first = fine.first s.first ∧ s.last = fine.last s.first) := by
    rintro ⟨-, hlast⟩
    exact hends hlast
  rw [coverRest, if_pos hshort, if_neg hnot, ite_self]

/-- A range inside an hour that has not reached the end of it is covered by minutes, and the passes
after the first see nothing in it. -/
theorem Shards.ofSpan_of_inside_hour {first : Int} {last : Instant} (hle : first ≤ last.second)
    (hnano : last.nano < 2000000000) (hlim : last.second < calendarEnd)
    (hinside : last.reach < Division.hour.start (Division.hour.bucket first + 1)) :
    Shards.ofSpan ⟨startOf first, last⟩
      = { minutes := [Division.minute.shard (startOf first) last] } := by
  have hsome : ¬ last.Before (startOf first) := by rw [before_startOf_iff]; omega
  have hhour := Division.minute_nested_hour.coarseLawful
  have hshort : (startOf first).elapsed last < nanosPerSecond * 3600 := by
    have h1 := elapsed_startOf_le first last
    have h2 := hhour.start_le first
    simp only [Division.hour, Division.every, nanosPerSecond, reach] at *
    split at hinside <;> omega
  have hlast {d : Division} (hd : Division.hour.Nested d calendarEnd) {t : Int}
      (ht : t < calendarEnd) : last ≠ lastBefore (d.stop t) := by
    rw [hd.coarseLawful.stop_eq ht]
    exact hd.ne_lastBefore hle hinside _
  have hedges : coverEdges .minute .hour ⟨startOf first, last⟩
      = ([Division.minute.shard (startOf first) last], ⟨startOf first, last⟩) :=
    if_pos (before_lastBefore_iff.2 hinside)
  have hlim' : first < calendarEnd := lt_of_le_of_lt hle hlim
  have hhours : coverRest .hour .day 3600 ⟨startOf first, last⟩ = ([], ⟨startOf first, last⟩) :=
    coverRest_of_short hshort (hlast hhour.nested_self hlim')
  have hdays : coverRest .day .month secondsPerDay ⟨startOf first, last⟩
      = ([], ⟨startOf first, last⟩) :=
    coverRest_of_short (hshort.trans (by decide)) (hlast Division.hour_nested_day hlim')
  have hmonths : coverMonths ⟨startOf first, last⟩ = [] := by
    rw [coverMonths, if_neg]
    rintro ⟨-, -, hwhole⟩
    exact hlast (Division.hour_nested_day.trans Division.day_nested_month) hlim hwhole
  simp only [ofSpan, if_neg hsome, hedges, hhours, hdays, hmonths]

/-! ## Ends behind the last microsecond -/

/-- The range ends behind the last microsecond of the hour in which it begins, and that hour has
begun before it. -/
def Span.Overruns (s : Span) : Prop :=
  999999000 < s.last.nano ∧
    s.last.second + 1 = Division.hour.start (Division.hour.bucket s.first.second + 1) ∧
    s.first ≠ Division.hour.first s.first

instance (s : Span) : Decidable s.Overruns := inferInstanceAs (Decidable (_ ∧ _ ∧ _))

section Past

variable {fine coarse : Division} {limit : Int}

theorem reach_of_past {t : Instant} (hn : 999999000 < t.nano) : t.reach = t.second + 1 :=
  if_pos hn.le

/-- An instant behind the last microsecond ends no bucket. -/
theorem backEdge_of_past {t : Instant} (hn : 999999000 < t.nano) :
    backEdge fine coarse t
      = ([fine.shard (coarse.first t) t], .lastBefore (coarse.start (coarse.bucket t.second))) := by
  refine if_neg fun heq => ?_
  have hnano := congrArg Instant.nano heq
  simp only [Division.last, lastBefore] at hnano
  omega

/-- A pass over a range that ends behind the last microsecond covers a front edge and a back edge,
even where they overlap. -/
theorem coverEdges_of_past (h : fine.Nested coarse limit) {first : Int} {last : Instant}
    (hf : fine.start (fine.bucket first) = first) (hlim : first < limit)
    (hn : 999999000 < last.nano) (hreach : coarse.start (coarse.bucket first + 1) ≤ last.reach) :
    ∃ i, (coverEdges fine coarse ⟨startOf first, last⟩).2
        = ⟨startOf (coarse.start i), lastBefore (coarse.start (coarse.bucket last.second))⟩ ∧
      (∀ k, i ≤ k ↔ first ≤ coarse.start k) ∧
      ∀ t, fine.coverage (coverEdges fine coarse ⟨startOf first, last⟩).1 t
        = within first (coarse.start i) t
          + within (coarse.start (coarse.bucket last.second))
              (fine.start (fine.bucket last.second + 1)) t := by
  obtain ⟨i, hi, hleast, hfront⟩ := frontEdge_spec h hf hlim
  have hnot : ¬ last.Before (coarse.last (startOf first)) := by
    have hstop : coarse.stop (startOf first).second = coarse.start (coarse.bucket first + 1) :=
      h.coarseLawful.stop_eq hlim
    rw [Division.last, hstop, before_lastBefore_iff, not_lt]
    exact hreach
  rw [coverEdges_of_not_before hnot, backEdge_of_past hn]
  refine ⟨i, by rw [hi], hleast, fun t => ?_⟩
  rw [Division.coverage_append, hfront, Division.coverage_shard]
  simp only [Division.first, startOf, h.boundary]

end Past

/-- A range that reaches the end of the hour in which it begins, and does not overrun it, has begun
before the hour in which it ends. -/
theorem Span.le_start_of_not_overruns {first : Int} {last : Instant} (hn : 999999000 < last.nano)
    (hreach : Division.hour.start (Division.hour.bucket first + 1) ≤ last.reach)
    (hover : ¬ (Span.mk (startOf first) last).Overruns) :
    first ≤ Division.hour.start (Division.hour.bucket last.second) := by
  have hc := Division.minute_nested_hour.coarseLawful
  rw [reach_of_past hn] at hreach
  rcases hreach.lt_or_eq with hlater | hend
  · -- the range ends in a later hour
    have hnext := hc.le_bucket_iff.2 (Int.le_of_lt_add_one hlater)
    exact (hc.lt_next first).le.trans (hc.start_le_start_iff.2 hnext)
  · -- it ends with the hour in which it begins, so it begins with that hour
    have hfirst : startOf first = Division.hour.first (startOf first) := by
      by_contra hne
      exact hover ⟨hn, hend.symm, hne⟩
    have hlast := hc.bucket_pred_start (Division.hour.bucket first + 1)
    rw [hend, Int.add_sub_cancel, Int.add_sub_cancel] at hlast
    rw [hlast]
    exact (startOf_inj.1 hfirst).le

/-- A range that ends behind the last microsecond of a second is covered once, unless it overruns
the hour in which it begins. -/
theorem Shards.coverage_ofSpan_of_past {first : Int} {last : Instant}
    (hf : Division.minute.start (Division.minute.bucket first) = first)
    (hle : first ≤ last.second) (hn : 999999000 < last.nano) (hnano : last.nano < 2000000000)
    (hlim : last.second < calendarEnd) (hover : ¬ (Span.mk (startOf first) last).Overruns)
    (minute : Int) :
    (Shards.ofSpan ⟨startOf first, last⟩).coverage minute
      = within first (Division.minute.start (Division.minute.bucket last.second + 1))
          (60 * minute) := by
  have hc := Division.minute_nested_hour.coarseLawful
  have hsome : ¬ last.Before (startOf first) := by rw [before_startOf_iff]; omega
  by_cases hinside : last.reach < Division.hour.start (Division.hour.bucket first + 1)
  · rw [ofSpan_of_inside_hour hle hnano hlim hinside, coverage, Division.coverage_shard]
    simp only [startOf, hf, Division.coverage_nil, Nat.add_zero]
  · rw [not_lt] at hinside
    obtain ⟨i, hspan, hleast, hcover⟩ := coverEdges_of_past Division.minute_nested_hour hf
      (lt_of_le_of_lt hle hlim) hn hinside
    have hstart := Span.le_start_of_not_overruns hn hinside hover
    have hij := (hleast _).2 hstart
    have hlim' : (lastBefore (Division.hour.start (Division.hour.bucket last.second))).second
        < calendarEnd := by
      have := hc.start_le last.second
      simp only [lastBefore]
      omega
    obtain ⟨hminutes, a₂, b₂, a₃, b₃, -, -, hrest⟩ :=
      Shards.coverages_rest hsome (hspan ▸ Leaves.of_le hij) (hspan ▸ hlim')
    obtain ⟨h₂, h₃, h₄⟩ := hrest (60 * minute)
    have hends : Division.hour.start (Division.hour.bucket last.second)
        ≤ Division.minute.start (Division.minute.bucket last.second + 1) :=
      (hc.start_le _).trans (Division.minute_nested_hour.fineLawful.lt_next _).le
    have hfront := within_append ((hleast i).1 le_rfl) (hc.start_le_start_iff.2 hij) (60 * minute)
    have hback := within_append hstart hends (60 * minute)
    rw [coverage, hminutes, hcover]
    omega

/-- A range that overruns the hour in which it begins has its first minute in two shards. -/
theorem Shards.coverage_of_overruns {first : Int} {last : Instant}
    (hf : Division.minute.start (Division.minute.bucket first) = first)
    (hle : first ≤ last.second) (hlim : last.second < calendarEnd)
    (hover : (Span.mk (startOf first) last).Overruns) :
    Division.minute.coverage (Shards.ofSpan ⟨startOf first, last⟩).minutes first = 2 := by
  obtain ⟨hn, hend, hne⟩ := hover
  have hc := Division.minute_nested_hour.coarseLawful
  have hsome : ¬ last.Before (startOf first) := by rw [before_startOf_iff]; omega
  have hreach : Division.hour.start (Division.hour.bucket first + 1) ≤ last.reach := by
    rw [reach_of_past hn, hend]
    exact le_rfl
  obtain ⟨i, -, hleast, hcover⟩ := coverEdges_of_past Division.minute_nested_hour hf
    (lt_of_le_of_lt hle hlim) hn hreach
  have hlast : Division.hour.bucket last.second = Division.hour.bucket first := by
    have hpred := hc.bucket_pred_start (Division.hour.bucket first + 1)
    rwa [show Division.hour.start (Division.hour.bucket first + 1) = last.second + 1 from hend.symm,
      Int.add_sub_cancel, Int.add_sub_cancel] at hpred
  have hbegun : Division.hour.start (Division.hour.bucket first) < first :=
    lt_of_le_of_ne (hc.start_le first) fun heq => hne (startOf_inj.2 heq.symm)
  have hi : Division.hour.bucket first < i := by
    rw [← not_le, hleast, not_le]
    exact hbegun
  have hfront : first < Division.hour.start i :=
    (hc.lt_next first).trans_le (hc.start_le_start_iff.2 hi)
  have hback : first < Division.minute.start (Division.minute.bucket last.second + 1) :=
    lt_of_le_of_lt hle (Division.minute_nested_hour.fineLawful.lt_next _)
  have hminutes : (Shards.ofSpan ⟨startOf first, last⟩).minutes
      = (coverEdges .minute .hour ⟨startOf first, last⟩).1 := by
    rw [Shards.ofSpan, if_neg hsome]
  rw [hminutes, hcover, hlast, within, within, if_pos ⟨le_rfl, hfront⟩, if_pos ⟨hbegun.le, hback⟩]

/-! ## Shards between bounds -/

/-- **Shards stay between the earlier bound and the present**, and no minute lies in two shards of
minutes, whatever the nanoseconds of the clock, exactly if the range does not overrun the hour in
which it begins. -/
theorem between_staysIn_iff {a b now : Instant} (hnano : now.nano < 2000000000)
    (ha : a.second < calendarEnd) (hb : b.second < calendarEnd) :
    let first := Division.minute.first (a.earlier b)
    let last := (Division.minute.last (a.later b)).earlier now
    (Shards.between a b now).StaysIn ⟨first, now⟩ ↔ ¬ (Span.mk first last).Overruns := by
  intro first last
  have hrange : Shards.range a b now = ⟨first, last⟩ := Shards.range_eq a b now
  rw [Shards.between, hrange]
  by_cases hnone : last.Before first
  · have hempty : Shards.ofSpan ⟨first, last⟩ = {} := by rw [Shards.ofSpan, if_pos hnone]
    rw [hempty]
    refine iff_of_true (Shards.staysIn_empty _) ?_
    rintro ⟨-, hend, -⟩
    have hlt := Division.minute_nested_hour.coarseLawful.lt_next first.second
    have hbefore : last.second < first.second := before_startOf_iff.1 hnone
    simp only at hend
    omega
  · obtain ⟨start, hfirst, hminute, hle, hends, hnow, hlim⟩ :=
      Shards.range_ends ha hb (by rwa [hrange])
    rw [hrange] at hfirst hle hends hnow hlim
    simp only at hfirst hle hends hnow hlim
    rw [hfirst]
    constructor
    · intro hstays hover
      have hone := hstays.once (Division.minute.bucket start)
      have htwo := Shards.coverage_of_overruns hminute hle hlim hover
      have hstart : 60 * Division.minute.bucket start = start := hminute
      rw [hstart, htwo] at hone
      omega
    · intro hover
      refine Shards.staysIn_of_coverage hnow fun minute => ?_
      by_cases hn : 999999000 < last.nano
      · have hlast : last = now := hends.resolve_right (by omega)
        exact Shards.coverage_ofSpan_of_past hminute hle hn (hlast ▸ hnano) hlim hover minute
      · exact Shards.coverage_ofSpan hminute hle (not_lt.1 hn) hlim minute

/-- The present in a leap second, at the end of an hour behind the one in which the range begins. -/
theorem between_staysIn_iff_leap_second :
    let a : Instant := .ofCivil 2016 12 31 22 10 0 0
    let b : Instant := .ofCivil 2017 1 2 0 30 0 0
    let now : Instant := .ofCivil 2016 12 31 23 59 59 1500000000
    now.nano < 2000000000 ∧ a.second < calendarEnd ∧ b.second < calendarEnd ∧
      (Shards.between a b now).StaysIn ⟨Division.minute.first a, now⟩ := by
  intro a b now
  have hiff := @between_staysIn_iff a b now (by decide) (by decide) (by decide)
  exact ⟨by decide, by decide, by decide, hiff.2 (by decide)⟩

/-- The present half a microsecond before an hour ends. The minutes from ten past the hour on are
covered as the front edge and as the back edge of it, and the ten minutes before them as the latter. -/
theorem between_overruns_hour :
    let a : Instant := .ofCivil 2021 6 3 11 10 0 0
    let b : Instant := .ofCivil 2021 6 3 12 30 0 0
    let now : Instant := .ofCivil 2021 6 3 11 59 59 999999500
    ¬ (Shards.between a b now).StaysIn ⟨Division.minute.first (a.earlier b), now⟩ := by
  intro a b now hstays
  have htwo : Division.minute.coverage (Shards.between a b now).minutes
      (60 * (a.second / 60)) = 2 := by decide
  have hone := hstays.once (a.second / 60)
  omega

end Colonnade.Time

import Colonnade.Time.Instant

/-!
# Covering a range of time

A range is covered by the coarsest buckets that lie inside it: whole months, then whole days at its
edges, then whole hours, then single minutes. Each pass covers the edges of the range that are no
whole buckets of the next division, and leaves the middle to the passes after it.
-/

namespace Colonnade.Time

/-! ## Divisions -/

/-- A division of time into numbered buckets. -/
structure Division where
  /-- The bucket of a second. -/
  bucket : Int → Int
  /-- The first second of a bucket. -/
  start : Int → Int
  /-- The second with which the bucket of a second ends. -/
  stop : Int → Int

namespace Division

/-- The division into buckets of a fixed number of seconds. -/
def every (seconds : Int) : Division where
  bucket s := s / seconds
  start b := seconds * b
  stop s := seconds * (s / seconds + 1)

/-- Minutes. -/
def minute : Division := every 60

/-- Hours. -/
def hour : Division := every 3600

/-- Days. -/
def day : Division := every Instant.secondsPerDay

/-- The last month of the calendar. -/
def lastMonth : Int := 12 * (Instant.lastYear - 1) + 11

/-- Months. The last month of the calendar has no next one, so there a day stands for it. -/
def month : Division where
  bucket s := monthOf (s / Instant.secondsPerDay)
  start b := Instant.secondsPerDay * monthStart b
  stop s :=
    let b := monthOf (s / Instant.secondsPerDay)
    if b < lastMonth then Instant.secondsPerDay * monthStart (b + 1) else day.stop s

/-- The first instant of the bucket of an instant. -/
def first (d : Division) (t : Instant) : Instant := .startOf (d.start (d.bucket t.second))

/-- The last instant of the bucket of an instant. -/
def last (d : Division) (t : Instant) : Instant := .lastBefore (d.stop t.second)

end Division

/-! ## Passes -/

/-- A range with both its ends. -/
structure Span where
  first : Instant
  last : Instant
deriving DecidableEq, Repr

/-- Adjacent buckets of one division, from the first to the last. -/
structure Shard where
  first : Int
  last : Int
deriving DecidableEq, Repr

/-- The shard of a range. -/
def Division.shard (d : Division) (a b : Instant) : Shard := ⟨d.bucket a.second, d.bucket b.second⟩

/-- Covers the edges of a range by fine buckets, and leaves the whole coarse buckets between them.
A range inside one coarse bucket is covered as it is. -/
def coverEdges (fine coarse : Division) (s : Span) : List Shard × Span :=
  if s.last.Before (coarse.last s.first) then ([fine.shard s.first s.last], s)
  else
    let (front, first) :=
      if s.first = coarse.first s.first then ([], s.first)
      else
        ([fine.shard s.first (coarse.last s.first)], .startOf (coarse.stop s.first.second))
    let (back, last) :=
      if s.last = coarse.last s.last then ([], s.last)
      else
        ([fine.shard (coarse.first s.last) s.last],
          .lastBefore (coarse.start (coarse.bucket s.last.second)))
    (front ++ back, ⟨first, last⟩)

/-- Covers what the pass before has left: nothing, or less than a bucket of `length` seconds, which
is covered only if it is a whole bucket, or a range with edges. -/
def coverRest (fine coarse : Division) (length : Int) (s : Span) : List Shard × Span :=
  if s.last.Before s.first then ([], s)
  else if s.first.elapsed s.last < Instant.nanosPerSecond * length then
    if s.first = fine.first s.first ∧ s.last = fine.last s.first then
      ([fine.shard s.first s.last], s)
    else ([], s)
  else coverEdges fine coarse s

/-- Covers whole months. -/
def coverMonths (s : Span) : List Shard :=
  if ¬ s.last.Before s.first ∧ s.first = Division.month.first s.first
      ∧ s.last = Division.month.last s.last then
    [Division.month.shard s.first s.last]
  else []

/-! ## Shards -/

/-- The shards of a range by division. -/
structure Shards where
  minutes : List Shard := []
  hours : List Shard := []
  days : List Shard := []
  months : List Shard := []
deriving DecidableEq, Repr

namespace Shards

/-- Whether nothing is covered. -/
def isEmpty (s : Shards) : Bool :=
  s.minutes.isEmpty && s.hours.isEmpty && s.days.isEmpty && s.months.isEmpty

/-- The range from the minute of one bound to the minute of the other, not beyond the present. The
bounds may come in either order. -/
def range (a b now : Instant) : Span :=
  let first := Division.minute.first a
  let last := Division.minute.last b
  let (first, last) :=
    if last.Before first then (Division.minute.first last, Division.minute.last first)
    else (first, last)
  ⟨first, if now.Before last then now else last⟩

/-- The shards of a range. -/
def ofSpan (s : Span) : Shards :=
  if s.last.Before s.first then {}
  else
    let (minutes, s) := coverEdges .minute .hour s
    let (hours, s) := coverRest .hour .day 3600 s
    let (days, s) := coverRest .day .month Instant.secondsPerDay s
    { minutes, hours, days, months := coverMonths s }

/-- The shards between two instants, as of the present. -/
def between (a b now : Instant) : Shards := ofSpan (range a b now)

end Shards

/-! ## Texts -/

/-- The text of a minute. -/
def minuteText (minute : Int) : String :=
  dayText (minute / 1440) ++ " " ++ padded 2 (minute % 1440 / 60).toNat ++ ":"
    ++ padded 2 (minute % 60).toNat ++ ":00"

/-- The text of an hour. -/
def hourText (hour : Int) : String := minuteText (60 * hour)

/-- The text of the start of a day. -/
def midnightText (day : Int) : String := minuteText (1440 * day)

/-- The text of a month: that of its first day. -/
def monthText (month : Int) : String := midnightText (monthStart month)

/-- The first and the last bucket of a shard as texts. -/
def Shard.texts (text : Int → String) (s : Shard) : String × String := (text s.first, text s.last)

end Colonnade.Time

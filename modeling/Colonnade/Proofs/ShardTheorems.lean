import Colonnade.Proofs.CalendarTheorems
import Mathlib.Tactic.SplitIfs

/-!
# The shards of a range cover it once

A range is cut by four passes that hand a span to each other. `Leaves d s a b` is what holds between
two of them: of the span `s`, the seconds from `a` on and before `b` are left for the division `d`
and coarser ones, and they are whole buckets of `d`. A span that is left as it was, because it lies
inside one bucket, leaves nothing, and every later pass finds out by itself that this is so
(`Leaves.part`).

Each pass covers what was left to it without what it leaves, so the four coverages add up to the
span (`Shards.coverage_ofSpan`), which two bounds and the present make (`Shards.range_eq`).
-/

namespace Colonnade.Time

open Instant

/-! ## Instants -/

namespace Instant

/-- The earlier of two instants. -/
def earlier (a b : Instant) : Instant := if b.Before a then b else a

/-- The later of two instants. -/
def later (a b : Instant) : Instant := if b.Before a then a else b

/-- The second that an instant has reached: the next one already in the last microsecond. -/
def reach (t : Instant) : Int := if 999999000 ≤ t.nano then t.second + 1 else t.second

theorem second_le_reach (t : Instant) : t.second ≤ t.reach := by
  unfold reach; split <;> omega

theorem reach_le (t : Instant) : t.reach ≤ t.second + 1 := by
  unfold reach; split <;> omega

@[simp] theorem reach_lastBefore (b : Int) : (lastBefore b).reach = b := by
  simp [reach, lastBefore]

/-- An instant is before the end of a bucket until it has reached it. -/
theorem before_lastBefore_iff {t : Instant} {b : Int} : t.Before (lastBefore b) ↔ t.reach < b := by
  simp only [Before, lastBefore, reach]
  split <;> omega

theorem eq_lastBefore_iff {t : Instant} {b : Int} (hn : t.nano ≤ 999999000) (hb : t.second < b) :
    t = lastBefore b ↔ t.reach = b := by
  obtain ⟨second, nano⟩ := t
  simp only [lastBefore, reach, mk.injEq] at *
  split <;> omega

@[simp] theorem startOf_inj {a b : Int} : startOf a = startOf b ↔ a = b := by
  simp [startOf]

end Instant

/-- Whether an instant lies in a range. -/
def Span.Holds (s : Span) (t : Instant) : Prop := ¬ t.Before s.first ∧ ¬ s.last.Before t

instance (s : Span) (t : Instant) : Decidable (s.Holds t) :=
  inferInstanceAs (Decidable (¬ t.Before s.first ∧ ¬ s.last.Before t))

/-! ## Coverage -/

/-- Whether a second lies in the buckets of a shard. -/
def Division.covers (d : Division) (t : Int) (s : Shard) : Bool :=
  d.start s.first ≤ t && t < d.start (s.last + 1)

/-- How many shards of a division cover a second. -/
def Division.coverage (d : Division) (shards : List Shard) (t : Int) : Nat :=
  shards.countP (d.covers t)

/-- How many shards of all divisions together cover a minute. -/
def Shards.coverage (s : Shards) (minute : Int) : Nat :=
  Division.minute.coverage s.minutes (60 * minute) + Division.hour.coverage s.hours (60 * minute)
    + Division.day.coverage s.days (60 * minute) + Division.month.coverage s.months (60 * minute)

/-- One for the seconds from a first one on and before a last one. -/
def within (a b t : Int) : Nat := if a ≤ t ∧ t < b then 1 else 0

@[simp] theorem within_self (a t : Int) : within a a t = 0 := by
  unfold within; split <;> omega

theorem within_append {a b c : Int} (hab : a ≤ b) (hbc : b ≤ c) (t : Int) :
    within a b t + within b c t = within a c t := by
  unfold within; split_ifs <;> omega

@[simp] theorem Division.coverage_nil (d : Division) (t : Int) : d.coverage [] t = 0 := rfl

theorem Division.coverage_append (d : Division) (l₁ l₂ : List Shard) (t : Int) :
    d.coverage (l₁ ++ l₂) t = d.coverage l₁ t + d.coverage l₂ t :=
  List.countP_append

@[simp] theorem Division.coverage_shard (d : Division) (a b : Instant) (t : Int) :
    d.coverage [d.shard a b] t
      = within (d.start (d.bucket a.second)) (d.start (d.bucket b.second + 1)) t := by
  simp [coverage, covers, shard, within, List.countP_cons]

/-! ## Fine buckets at the edges of coarse ones -/

section Nested

variable {fine coarse : Division} {limit : Int}

/-- The last second of a coarse bucket ends a fine one. -/
theorem Division.Nested.fine_stop (h : fine.Nested coarse limit) (b : Int) :
    fine.start (fine.bucket (coarse.start b - 1) + 1) = coarse.start b := by
  have e := h.boundary b
  rw [← e, h.fineLawful.bucket_pred_start, Int.sub_add_cancel]

/-- Seconds of one fine bucket are seconds of one coarse bucket. -/
theorem Division.Nested.bucket_eq (h : fine.Nested coarse limit) {s t : Int}
    (hst : fine.bucket s = fine.bucket t) : coarse.bucket s = coarse.bucket t := by
  -- a coarse start is a fine start, and the two seconds are not before the same fine starts
  have key : ∀ {x y : Int}, fine.bucket x = fine.bucket y → coarse.bucket x ≤ coarse.bucket y := by
    intro x y hxy
    rw [h.coarseLawful.le_bucket_iff, ← h.boundary, ← h.fineLawful.le_bucket_iff, ← hxy,
      h.fineLawful.le_bucket_iff, h.boundary]
    exact h.coarseLawful.start_le x
  exact le_antisymm (key hst) (key hst.symm)

end Nested

/-! ## Buckets between two seconds -/

/-- Whether the bucket of a second lies between two seconds. -/
def Division.Inside (d : Division) (a b t : Int) : Prop :=
  a ≤ d.start (d.bucket t) ∧ d.start (d.bucket t + 1) ≤ b

/-- What whole fine buckets make up has the same coarse buckets inside as the range they are from. -/
theorem Division.Nested.inside_iff {fine coarse : Division} {limit a b a' b' : Int}
    (h : fine.Nested coarse limit) (hfine : ∀ t, a' ≤ t ∧ t < b' ↔ fine.Inside a b t) (t : Int) :
    coarse.Inside a' b' t ↔ coarse.Inside a b t := by
  have hf := h.fineLawful
  have hb := h.boundary (coarse.bucket t)
  have hb' := h.boundary (coarse.bucket t + 1)
  have hstop := h.fine_stop (coarse.bucket t + 1)
  have hlt := h.coarseLawful.start_lt (coarse.bucket t)
  simp only [Division.Inside]
  generalize coarse.start (coarse.bucket t) = s at *
  generalize coarse.start (coarse.bucket t + 1) = e at *
  -- the first and the last fine bucket of the coarse one
  have hfirst := hfine s
  have hlast := hfine (e - 1)
  simp only [Division.Inside, hb, hstop] at hfirst hlast
  have hfirst_stop : fine.start (fine.bucket s + 1) ≤ e := by
    rw [← hb', hf.start_le_start_iff, Int.add_one_le_iff, hf.bucket_lt_iff, hb']
    omega
  have hlast_start : s ≤ fine.start (fine.bucket (e - 1)) := by
    rw [← hb, hf.start_le_start_iff, hf.le_bucket_iff, hb]
    omega
  omega

/-! ## What a pass leaves -/

/-- The seconds from the first number on and before the second one are what a span leaves to a
division and to coarser ones. -/
inductive Leaves (d : Division) : Span → Int → Int → Prop where
  /-- The span is used up. -/
  | nothing {s : Span} (a : Int) : s.last.Before s.first → Leaves d s a a
  /-- The span lies inside one bucket and is not the whole of it. -/
  | part {first : Int} {last : Instant} (a : Int) : first ≤ last.second → last.nano ≤ 999999000 →
      d.bucket first = d.bucket last.second →
      ¬ (d.start (d.bucket first) = first ∧ last.reach = d.start (d.bucket first + 1)) →
      Leaves d ⟨startOf first, last⟩ a a
  /-- The span is made of whole buckets. -/
  | whole {i j : Int} : i < j →
      Leaves d ⟨startOf (d.start i), lastBefore (d.start j)⟩ (d.start i) (d.start j)

/-- A span between two starts of buckets leaves what lies between them. -/
theorem Leaves.of_le {d : Division} {i j : Int} (hij : i ≤ j) :
    Leaves d ⟨startOf (d.start i), lastBefore (d.start j)⟩ (d.start i) (d.start j) := by
  rcases hij.lt_or_eq with hlt | rfl
  · exact .whole hlt
  · refine .nothing _ ?_
    simp only [Before, lastBefore, startOf]
    omega

/-! ## One pass -/

/-- The fine buckets before the first whole coarse one, and where that starts. -/
def frontEdge (fine coarse : Division) (t : Instant) : List Shard × Instant :=
  if t = coarse.first t then ([], t)
  else ([fine.shard t (coarse.last t)], .startOf (coarse.stop t.second))

/-- The fine buckets after the last whole coarse one, and where that ends. -/
def backEdge (fine coarse : Division) (t : Instant) : List Shard × Instant :=
  if t = coarse.last t then ([], t)
  else ([fine.shard (coarse.first t) t], .lastBefore (coarse.start (coarse.bucket t.second)))

theorem coverEdges_of_not_before {fine coarse : Division} {s : Span}
    (h : ¬ s.last.Before (coarse.last s.first)) :
    coverEdges fine coarse s =
      ((frontEdge fine coarse s.first).1 ++ (backEdge fine coarse s.last).1,
        ⟨(frontEdge fine coarse s.first).2, (backEdge fine coarse s.last).2⟩) := by
  rw [coverEdges, if_neg h]
  rfl

section Passes

variable {fine coarse : Division} {limit : Int}

theorem frontEdge_spec (h : fine.Nested coarse limit) {first : Int}
    (hf : fine.start (fine.bucket first) = first) (hlim : first < limit) :
    ∃ i, (frontEdge fine coarse (startOf first)).2 = startOf (coarse.start i) ∧
      (∀ k, i ≤ k ↔ first ≤ coarse.start k) ∧
      ∀ t, fine.coverage (frontEdge fine coarse (startOf first)).1 t
        = within first (coarse.start i) t := by
  have hc := h.coarseLawful
  by_cases hw : first = coarse.start (coarse.bucket first)
  · have hcut : frontEdge fine coarse (startOf first) = ([], startOf first) :=
      if_pos (congrArg startOf hw)
    refine ⟨coarse.bucket first, ?_, fun k => ?_, fun t => ?_⟩
    · rw [hcut, ← hw]
    · rw [← hc.start_le_start_iff, ← hw]
    · rw [hcut, ← hw]; simp
  · have hcut : frontEdge fine coarse (startOf first)
        = ([fine.shard (startOf first) (coarse.last (startOf first))],
            startOf (coarse.start (coarse.bucket first + 1))) := by
      rw [← hc.stop_eq hlim]
      exact if_neg fun e => hw (startOf_inj.1 e)
    have hstart : coarse.start (coarse.bucket first) < first :=
      lt_of_le_of_ne (hc.start_le first) (Ne.symm hw)
    refine ⟨coarse.bucket first + 1, by rw [hcut], fun k => ?_, fun t => ?_⟩
    · constructor
      · intro hk
        exact (hc.lt_next first).le.trans (hc.start_le_start_iff.2 hk)
      · intro hk
        have := hc.start_lt_start_iff.1 (hstart.trans_le hk)
        omega
    · rw [hcut, Division.coverage_shard]
      simp only [startOf, Division.last, lastBefore, hf, hc.stop_eq hlim, h.fine_stop]

theorem backEdge_spec (h : fine.Nested coarse limit) {last : Instant}
    (hn : last.nano ≤ 999999000) (hlim : last.second < limit) :
    ∃ j, (backEdge fine coarse last).2 = lastBefore (coarse.start j) ∧
      (∀ k, k ≤ j ↔ coarse.start k ≤ last.reach) ∧
      ∀ t, fine.coverage (backEdge fine coarse last).1 t
        = within (coarse.start j) (fine.start (fine.bucket last.second + 1)) t := by
  have hc := h.coarseLawful
  have hr := last.second_le_reach
  have hr' := last.reach_le
  have hnext := hc.lt_next last.second
  have hend :
      last = coarse.last last ↔ last.reach = coarse.start (coarse.bucket last.second + 1) := by
    rw [Division.last, hc.stop_eq hlim]
    exact eq_lastBefore_iff hn hnext
  by_cases hw : last = coarse.last last
  · have hl : last = lastBefore (coarse.start (coarse.bucket last.second + 1)) := by
      rw [← hc.stop_eq hlim]; exact hw
    have hs : last.second = coarse.start (coarse.bucket last.second + 1) - 1 :=
      congrArg Instant.second hl
    have hcut : backEdge fine coarse last = ([], last) := if_pos hw
    refine ⟨coarse.bucket last.second + 1, ?_, fun k => ?_, fun t => ?_⟩
    · rw [hcut]; exact hl
    · rw [hend.1 hw, hc.start_le_start_iff]
    · rw [hcut, hs, hc.bucket_pred_start, Int.sub_add_cancel, h.fine_stop]
      simp
  · have hcut : backEdge fine coarse last
        = ([fine.shard (coarse.first last) last],
            lastBefore (coarse.start (coarse.bucket last.second))) := if_neg hw
    have hlt : coarse.bucket last.reach < coarse.bucket last.second + 1 := by
      have := mt hend.2 hw
      exact hc.bucket_lt_iff.2 (by omega)
    refine ⟨coarse.bucket last.second, by rw [hcut], fun k => ?_, fun t => ?_⟩
    · constructor
      · intro hk
        exact ((hc.start_le_start_iff.2 hk).trans (hc.start_le _)).trans hr
      · intro hk
        have := hc.le_bucket_iff.2 hk
        omega
    · rw [hcut, Division.coverage_shard]
      simp only [Division.first, startOf, h.boundary]

/-- A pass over the edges of a span covers it but for the coarse buckets inside, and leaves those. -/
theorem coverEdges_spec (h : fine.Nested coarse limit) {first : Int} {last : Instant}
    (hf : fine.start (fine.bucket first) = first) (hle : first ≤ last.second)
    (hn : last.nano ≤ 999999000) (hlim : last.second < limit) :
    ∃ a b, Leaves coarse (coverEdges fine coarse ⟨startOf first, last⟩).2 a b ∧
      (coverEdges fine coarse ⟨startOf first, last⟩).2.last.second < limit ∧
      (∀ t, a ≤ t ∧ t < b ↔ coarse.Inside first last.reach t) ∧
      ∀ t, fine.coverage (coverEdges fine coarse ⟨startOf first, last⟩).1 t + within a b t
        = within first (fine.start (fine.bucket last.second + 1)) t := by
  have hc := h.coarseLawful
  have hr := last.second_le_reach
  have hr' := last.reach_le
  have hinside : last.Before (coarse.last (startOf first)) ↔
      last.reach < coarse.start (coarse.bucket first + 1) := by
    rw [← hc.stop_eq (by omega)]
    exact before_lastBefore_iff
  by_cases hA : last.reach < coarse.start (coarse.bucket first + 1)
  · -- the span ends inside the coarse bucket it starts in
    have hb : coarse.bucket first = coarse.bucket last.second := by
      have h1 := hc.bucket_mono hle
      have h2 : coarse.bucket last.second < coarse.bucket first + 1 := hc.bucket_lt_iff.2 (by omega)
      omega
    have hpass : coverEdges fine coarse ⟨startOf first, last⟩
        = ([fine.shard (startOf first) last], ⟨startOf first, last⟩) := if_pos (hinside.2 hA)
    rw [hpass]
    refine ⟨first, first, .part _ hle hn hb (by omega), hlim, fun t => ?_, fun t => ?_⟩
    · have hnone : ¬ coarse.Inside first last.reach t := by
        rintro ⟨hstart, hstop⟩
        have h1 := hc.start_lt_start_iff.1 (hstop.trans_lt hA)
        have h2 := hc.start_lt (coarse.bucket t)
        have h3 := hc.start_le_start_iff.2 (Int.le_of_lt_add_one h1)
        have h4 := hc.start_le first
        omega
      simp only [hnone, iff_false]
      omega
    · simp [startOf, hf]
  · obtain ⟨i, hi, hleast, hfront⟩ := frontEdge_spec h hf (by omega)
    obtain ⟨j, hj, hgreatest, hback⟩ := backEdge_spec h hn hlim
    have hfi : first ≤ coarse.start i := (hleast i).1 le_rfl
    have hjr : coarse.start j ≤ last.reach := (hgreatest j).1 le_rfl
    have hij : i ≤ j :=
      ((hleast _).2 (hc.lt_next first).le).trans ((hgreatest _).2 (not_lt.1 hA))
    have hend : coarse.start j ≤ fine.start (fine.bucket last.second + 1) := by
      have := h.fineLawful.lt_next last.second
      omega
    rw [coverEdges_of_not_before (fun hbefore => hA (hinside.1 hbefore))]
    refine ⟨coarse.start i, coarse.start j, ?_, ?_, fun t => ?_, fun t => ?_⟩
    · simp only [hi, hj]
      exact .of_le hij
    · simp only [hj, lastBefore]
      omega
    · rw [Division.Inside, ← hleast, ← hgreatest, ← hc.le_bucket_iff, ← hc.bucket_lt_iff,
        Int.add_one_le_iff]
    · rw [Division.coverage_append, hfront, hback]
      have h1 := within_append hfi (hc.start_le_start_iff.2 hij) t
      have h2 := within_append (hfi.trans (hc.start_le_start_iff.2 hij)) hend t
      omega

/-- What lies inside a fine bucket lies inside a coarse one. -/
theorem Leaves.part_coarse (h : fine.Nested coarse limit) {first : Int} {last : Instant} (a : Int)
    (hle : first ≤ last.second) (hn : last.nano ≤ 999999000)
    (hb : fine.bucket first = fine.bucket last.second)
    (hp : ¬ (fine.start (fine.bucket first) = first ∧
      last.reach = fine.start (fine.bucket first + 1))) :
    Leaves coarse ⟨startOf first, last⟩ a a := by
  have hf := h.fineLawful
  have hc := h.coarseLawful
  refine .part a hle hn (h.bucket_eq hb) fun ⟨hs, he⟩ => hp ⟨?_, ?_⟩
  · rw [← hs, h.boundary]
  · -- the end of the coarse bucket is a fine start after the span, so it is the next one
    have hr := last.second_le_reach
    have hr' := last.reach_le
    have hle' : fine.start (fine.bucket first + 1) ≤ last.reach := by
      rw [he, ← h.boundary, hf.start_le_start_iff, Int.add_one_le_iff, hf.bucket_lt_iff,
        h.boundary]
      exact hc.lt_next first
    have hnext := hf.lt_next last.second
    rw [← hb] at hnext
    omega

/-- The nanoseconds from the start of a second to an instant outside leap seconds. -/
theorem elapsed_startOf (first : Int) {last : Instant} (hn : last.nano ≤ 999999000) :
    (startOf first).elapsed last = nanosPerSecond * (last.second - first) + last.nano := by
  have h1 : ¬ nanosPerSecond ≤ 0 := by decide
  have h2 : ¬ nanosPerSecond ≤ ((last.nano : Nat) : Int) := by
    simp only [nanosPerSecond]; omega
  simp [elapsed, startOf, h1, h2]

theorem before_startOf_iff {t : Instant} {b : Int} : t.Before (startOf b) ↔ t.second < b := by
  simp [Before, startOf]

/-- A pass over what the pass before has left covers it but for what it leaves itself. -/
theorem coverRest_spec (length : Int) (h : fine.Nested coarse limit)
    (hfine : ∀ b, fine.start (b + 1) = fine.start b + length)
    (hcoarse : ∀ b, coarse.start b + length < coarse.start (b + 1))
    {s : Span} {a b : Int} (hs : Leaves fine s a b) (hlim : s.last.second < limit) :
    ∃ a' b', Leaves coarse (coverRest fine coarse length s).2 a' b' ∧
      (coverRest fine coarse length s).2.last.second < limit ∧
      (∀ t, a' ≤ t ∧ t < b' ↔ coarse.Inside a b t) ∧
      ∀ t, fine.coverage (coverRest fine coarse length s).1 t + within a' b' t = within a b t := by
  have hf := h.fineLawful
  have hc := h.coarseLawful
  have hnone : ∀ c t, c ≤ t ∧ t < c ↔ coarse.Inside c c t := by
    intro c t
    have := hc.start_lt (coarse.bucket t)
    rw [Division.Inside]
    omega
  cases hs with
  | nothing _ hbefore =>
    have hpass : coverRest fine coarse length s = ([], s) := if_pos hbefore
    rw [hpass]
    exact ⟨a, a, .nothing a hbefore, hlim, hnone a, fun t => by simp⟩
  | @part first last _ hle hn hb hp =>
    have hlim' : first < limit := lt_of_le_of_lt hle hlim
    have hshort : (startOf first).elapsed last < nanosPerSecond * length := by
      have h1 := hf.start_le first
      have h2 := hf.lt_next last.second
      rw [← hb, hfine] at h2
      rw [elapsed_startOf first hn]
      simp only [nanosPerSecond]
      omega
    have hwhole : ¬ (startOf first = fine.first (startOf first) ∧
        last = fine.last (startOf first)) := by
      rintro ⟨h1, h2⟩
      have h3 : last = lastBefore (fine.start (fine.bucket first + 1)) := by
        rw [← hf.stop_eq hlim']; exact h2
      exact hp ⟨(startOf_inj.1 h1).symm, (congrArg reach h3).trans (reach_lastBefore _)⟩
    have hpass : coverRest fine coarse length ⟨startOf first, last⟩
        = ([], ⟨startOf first, last⟩) := by
      rw [coverRest, if_neg (by simp only [before_startOf_iff]; omega), if_pos hshort,
        if_neg hwhole]
    rw [hpass]
    exact ⟨a, a, .part_coarse h a hle hn hb hp, hlim, hnone a, fun t => by simp⟩
  | @whole i j hij =>
    have hn : (lastBefore (fine.start j)).nano ≤ 999999000 := le_rfl
    have hlt := hf.start_lt_start_iff.2 hij
    have hi : fine.bucket (fine.start i) = i := hf.bucket_start i
    have hj : fine.bucket (fine.start j - 1) = j - 1 := hf.bucket_pred_start j
    have hlim' : fine.start i < limit := by simp only [lastBefore] at hlim; omega
    have helapsed := elapsed_startOf (fine.start i) hn
    have hsome : ¬ (lastBefore (fine.start j)).Before (startOf (fine.start i)) := by
      simp only [before_startOf_iff, lastBefore]; omega
    by_cases hone : j = i + 1
    · -- one bucket: it is covered, and the span stays
      subst hone
      have hwhole : startOf (fine.start i) = fine.first (startOf (fine.start i)) ∧
          lastBefore (fine.start (i + 1)) = fine.last (startOf (fine.start i)) := by
        simp only [Division.first, Division.last, startOf, hi, hf.stop_eq hlim', and_self]
      have hpass : coverRest fine coarse length
            ⟨startOf (fine.start i), lastBefore (fine.start (i + 1))⟩
          = ([fine.shard (startOf (fine.start i)) (lastBefore (fine.start (i + 1)))],
              ⟨startOf (fine.start i), lastBefore (fine.start (i + 1))⟩) := by
        rw [coverRest, if_neg hsome, if_pos, if_pos hwhole]
        rw [helapsed, hfine]
        simp only [lastBefore, nanosPerSecond]
        omega
      have hpart : ¬ (coarse.start (coarse.bucket (fine.start i)) = fine.start i ∧
          fine.start (i + 1) = coarse.start (coarse.bucket (fine.start i) + 1)) := by
        have := hcoarse (coarse.bucket (fine.start i))
        have := hfine i
        omega
      rw [hpass]
      refine ⟨fine.start i, fine.start i, .part _ ?_ le_rfl ?_ ?_, hlim, fun t => ?_, fun t => ?_⟩
      · simp only [lastBefore]; omega
      · refine h.bucket_eq ?_
        simp only [lastBefore, hi, hj]
        omega
      · rwa [reach_lastBefore]
      · have := hcoarse (coarse.bucket t)
        have := hfine i
        rw [Division.Inside]
        omega
      · simp [startOf, lastBefore, hi, hj]
    · -- more than one: the edges of the span are looked at
      have hlong : fine.start (i + 1) < fine.start j := hf.start_lt_start_iff.2 (by omega)
      have hpass : coverRest fine coarse length ⟨startOf (fine.start i), lastBefore (fine.start j)⟩
          = coverEdges fine coarse ⟨startOf (fine.start i), lastBefore (fine.start j)⟩ := by
        rw [coverRest, if_neg hsome, if_neg]
        rw [helapsed]
        simp only [lastBefore, nanosPerSecond]
        have := hfine i
        omega
      obtain ⟨a', b', hleaves, hlim'', hinside, hcover⟩ :=
        coverEdges_spec h (by rw [hi]) (by simp only [lastBefore]; omega) hn hlim
      rw [reach_lastBefore] at hinside
      rw [hpass]
      refine ⟨a', b', hleaves, hlim'', hinside, fun t => ?_⟩
      rw [hcover]
      simp only [lastBefore, hj, Int.sub_add_cancel]

/-- The last pass covers all that was left. -/
theorem coverMonths_spec {s : Span} {a b : Int} (hs : Leaves .month s a b)
    (hlim : s.last.second < calendarEnd) (t : Int) :
    Division.month.coverage (coverMonths s) t = within a b t := by
  have hm := Division.month_lawful
  cases hs with
  | nothing _ hbefore =>
    rw [coverMonths, if_neg (fun h => h.1 hbefore)]
    simp
  | @part first last _ hle hn hb hp =>
    rw [coverMonths, if_neg]
    · simp
    · rintro ⟨-, h1, h2⟩
      have h3 : last = lastBefore (Division.month.start (Division.month.bucket first + 1)) := by
        rw [hb, ← hm.stop_eq hlim]; exact h2
      exact hp ⟨(startOf_inj.1 h1).symm, (congrArg reach h3).trans (reach_lastBefore _)⟩
  | @whole i j hij =>
    have hlt := hm.start_lt_start_iff.2 hij
    have hi : Division.month.bucket (Division.month.start i) = i := hm.bucket_start i
    have hj := hm.bucket_pred_start j
    have hcond : ¬ (lastBefore (Division.month.start j)).Before
          (startOf (Division.month.start i)) ∧
        startOf (Division.month.start i)
          = Division.month.first (startOf (Division.month.start i)) ∧
        lastBefore (Division.month.start j)
          = Division.month.last (lastBefore (Division.month.start j)) := by
      refine ⟨?_, ?_, ?_⟩
      · simp only [before_startOf_iff, lastBefore]; omega
      · simp only [Division.first, startOf, hi]
      · simp only [Division.last, hm.stop_eq hlim]
        simp only [lastBefore, hj, Int.sub_add_cancel]
    rw [coverMonths, if_pos hcond]
    simp [startOf, lastBefore, hi, hj]

end Passes

/-! ## All passes -/

theorem Division.every_start_succ (seconds b : Int) :
    (every seconds).start (b + 1) = (every seconds).start b + seconds := by
  simp only [every, Int.mul_add, Int.mul_one]

/-- What the first pass leaves is covered by the three passes behind it: they hand on the whole days
of it, and the whole months of those. -/
theorem Shards.coverages_rest {s : Span} {a₁ b₁ : Int} (hsome : ¬ s.last.Before s.first)
    (hs : Leaves .hour (coverEdges .minute .hour s).2 a₁ b₁)
    (hlim : (coverEdges .minute .hour s).2.last.second < calendarEnd) :
    (Shards.ofSpan s).minutes = (coverEdges .minute .hour s).1 ∧
    ∃ a₂ b₂ a₃ b₃,
      (∀ t, a₂ ≤ t ∧ t < b₂ ↔ Division.day.Inside a₁ b₁ t) ∧
      (∀ t, a₃ ≤ t ∧ t < b₃ ↔ Division.month.Inside a₂ b₂ t) ∧
      ∀ t,
        Division.hour.coverage (Shards.ofSpan s).hours t + within a₂ b₂ t = within a₁ b₁ t ∧
        Division.day.coverage (Shards.ofSpan s).days t + within a₃ b₃ t = within a₂ b₂ t ∧
        Division.month.coverage (Shards.ofSpan s).months t = within a₃ b₃ t := by
  obtain ⟨a₂, b₂, hs₂, hl₂, hi₂, h₂⟩ := coverRest_spec 3600 Division.hour_nested_day
    (Division.every_start_succ 3600)
    (fun b => by simp only [Division.day, Division.every, secondsPerDay]; omega) hs hlim
  obtain ⟨a₃, b₃, hs₃, hl₃, hi₃, h₃⟩ := coverRest_spec secondsPerDay
    Division.day_nested_month (Division.every_start_succ secondsPerDay)
    (fun b => by
      have := monthStart_add_le b
      simp only [Division.month, secondsPerDay]; omega) hs₂ hl₂
  rw [Shards.ofSpan, if_neg hsome]
  exact ⟨rfl, a₂, b₂, a₃, b₃, hi₂, hi₃, fun t => ⟨h₂ t, h₃ t, coverMonths_spec hs₃ hl₃ t⟩⟩

/-- How many shards of each division cover a second: the passes hand on the whole hours of a span,
the whole days of these and the whole months of those. -/
theorem Shards.coverages_ofSpan {first : Int} {last : Instant}
    (hf : Division.minute.start (Division.minute.bucket first) = first)
    (hle : first ≤ last.second) (hn : last.nano ≤ 999999000) (hlim : last.second < calendarEnd) :
    ∃ a₁ b₁ a₂ b₂ a₃ b₃,
      (∀ t, a₁ ≤ t ∧ t < b₁ ↔ Division.hour.Inside first last.reach t) ∧
      (∀ t, a₂ ≤ t ∧ t < b₂ ↔ Division.day.Inside a₁ b₁ t) ∧
      (∀ t, a₃ ≤ t ∧ t < b₃ ↔ Division.month.Inside a₂ b₂ t) ∧
      ∀ t,
        Division.minute.coverage (Shards.ofSpan ⟨startOf first, last⟩).minutes t + within a₁ b₁ t
          = within first (Division.minute.start (Division.minute.bucket last.second + 1)) t ∧
        Division.hour.coverage (Shards.ofSpan ⟨startOf first, last⟩).hours t + within a₂ b₂ t
          = within a₁ b₁ t ∧
        Division.day.coverage (Shards.ofSpan ⟨startOf first, last⟩).days t + within a₃ b₃ t
          = within a₂ b₂ t ∧
        Division.month.coverage (Shards.ofSpan ⟨startOf first, last⟩).months t
          = within a₃ b₃ t := by
  obtain ⟨a₁, b₁, hs₁, hl₁, hi₁, h₁⟩ := coverEdges_spec Division.minute_nested_hour hf hle hn hlim
  have hsome : ¬ last.Before (startOf first) := by
    simp only [before_startOf_iff]; omega
  obtain ⟨hminutes, a₂, b₂, a₃, b₃, hi₂, hi₃, hrest⟩ := Shards.coverages_rest hsome hs₁ hl₁
  refine ⟨a₁, b₁, a₂, b₂, a₃, b₃, hi₁, hi₂, hi₃, fun t => ⟨?_, hrest t⟩⟩
  rw [hminutes]
  exact h₁ t

/-- The four passes together cover a span of minutes once. -/
theorem Shards.coverage_ofSpan {first : Int} {last : Instant}
    (hf : Division.minute.start (Division.minute.bucket first) = first)
    (hle : first ≤ last.second) (hn : last.nano ≤ 999999000) (hlim : last.second < calendarEnd)
    (minute : Int) :
    (Shards.ofSpan ⟨startOf first, last⟩).coverage minute
      = within first (Division.minute.start (Division.minute.bucket last.second + 1))
          (60 * minute) := by
  obtain ⟨a₁, b₁, a₂, b₂, a₃, b₃, -, -, -, h⟩ := Shards.coverages_ofSpan hf hle hn hlim
  obtain ⟨h₁, h₂, h₃, h₄⟩ := h (60 * minute)
  rw [Shards.coverage]
  omega

/-! ## The range -/

/-- Instants of one minute have its start and its end in common. -/
theorem minute_congr {a b : Instant} (h : a.second / 60 = b.second / 60) :
    Division.minute.first a = Division.minute.first b ∧
      Division.minute.last a = Division.minute.last b := by
  simp [Division.minute, Division.every, Division.first, Division.last, h]

theorem minute_last_before_first_iff {a b : Instant} :
    (Division.minute.last b).Before (Division.minute.first a) ↔ b.second / 60 < a.second / 60 := by
  simp only [Division.first, Division.last, before_startOf_iff]
  simp only [Division.minute, Division.every, lastBefore]
  omega

/-- The bounds may come in either order: the earlier one gives the start of the range, and the later
one its end. -/
theorem Shards.range_eq (a b now : Instant) :
    Shards.range a b now = ⟨Division.minute.first (a.earlier b),
      (Division.minute.last (a.later b)).earlier now⟩ := by
  have hend : ∀ t : Instant, (Division.minute.last t).second / 60 = t.second / 60 := by
    intro t
    simp only [Division.last, Division.minute, Division.every, lastBefore]
    omega
  have hstart : ∀ t : Instant, (Division.minute.first t).second / 60 = t.second / 60 := by
    intro t
    simp only [Division.first, Division.minute, Division.every, startOf]
    omega
  by_cases hswap : (Division.minute.last b).Before (Division.minute.first a)
  · -- swapped: each bound is cut to its minute from the end that it had before
    have hba : b.Before a := by
      rw [minute_last_before_first_iff] at hswap
      exact Or.inl (by omega)
    simp only [range, if_pos hswap, earlier, later, if_pos hba,
      (minute_congr (hend b)).1, (minute_congr (hstart a)).2]
  · have hsame : b.Before a → a.second / 60 = b.second / 60 := by
      rw [minute_last_before_first_iff] at hswap
      intro hba
      simp only [Before] at hba
      omega
    have hfirst : Division.minute.first (a.earlier b) = Division.minute.first a := by
      rw [earlier]
      split
      · next hba => exact (minute_congr (hsame hba)).1.symm
      · rfl
    have hlast : Division.minute.last (a.later b) = Division.minute.last b := by
      rw [later]
      split
      · next hba => exact (minute_congr (hsame hba)).2
      · rfl
    rw [hfirst, hlast]
    simp only [range, if_neg hswap, earlier]

/-- **Every minute of a range is covered once**, by a shard of one division, and no other minute is
covered. The range is that of whole minutes from the earlier bound to the later one, or to the
present. -/
theorem between_covers_each_minute_once {a b now : Instant} (micro : now.nano % 1000 = 0)
    (noLeap : now.nano < 1000000000) (ha : a.second < calendarEnd) (hb : b.second < calendarEnd) :
    let first := Division.minute.first (a.earlier b)
    let last := (Division.minute.last (a.later b)).earlier now
    (last.Before first → Shards.between a b now = {}) ∧
    (¬ last.Before first → ∀ minute, (Shards.between a b now).coverage minute
      = if (Span.mk first last).Holds (.startOf (60 * minute)) then 1 else 0) := by
  intro first last
  have hspan : Shards.between a b now = Shards.ofSpan ⟨first, last⟩ := by
    rw [Shards.between, Shards.range_eq]
  refine ⟨fun hnone => ?_, fun hsome minute => ?_⟩
  · rw [hspan, Shards.ofSpan, if_pos hnone]
  have hfirst : first = .startOf (60 * ((a.earlier b).second / 60)) := rfl
  have hle : 60 * ((a.earlier b).second / 60) ≤ last.second := by
    rw [hfirst, before_startOf_iff] at hsome
    omega
  have hn : last.nano ≤ 999999000 := by
    simp only [last, earlier]
    split
    · omega
    · simp [Division.last, lastBefore]
  have hlim : last.second < calendarEnd := by
    have hlater : (a.later b).second < calendarEnd := by rw [later]; split <;> assumption
    have hend : (Division.minute.last (a.later b)).second < calendarEnd := by
      simp only [Division.last, Division.minute, Division.every, lastBefore, calendarEnd,
        secondsPerDay] at *
      omega
    simp only [last, earlier]
    split
    · next hbefore => simp only [Before] at hbefore; omega
    · exact hend
  have hbucket : Division.minute.start (Division.minute.bucket (60 * ((a.earlier b).second / 60)))
      = 60 * ((a.earlier b).second / 60) :=
    congrArg (60 * ·) (Division.minute_nested_hour.fineLawful.bucket_start _)
  rw [hspan, hfirst, Shards.coverage_ofSpan hbucket hle hn hlim]
  simp only [within, Span.Holds, before_startOf_iff]
  simp only [startOf, Division.minute, Division.every]
  exact if_congr (by omega) rfl rfl

/-- A range from the last hour of a year into the last day of February, both bounds off the
minute. -/
theorem between_covers_each_minute_once_february :
    let a : Instant := .ofCivil 2020 12 31 23 0 5 0
    let b : Instant := .ofCivil 2021 2 28 23 0 5 0
    let now : Instant := .ofCivil 2030 1 1 0 0 0 0
    now.nano % 1000 = 0 ∧ now.nano < 1000000000 ∧ a.second < calendarEnd ∧ b.second < calendarEnd ∧
      ¬ (Division.minute.last b).Before (Division.minute.first a) ∧
      ∀ minute, (Shards.between a b now).coverage minute
        = if (Span.mk (Division.minute.first a) (Division.minute.last b)).Holds
            (.startOf (60 * minute)) then 1 else 0 := by
  refine ⟨by decide, by decide, by decide, by decide, by decide, ?_⟩
  exact (@between_covers_each_minute_once (.ofCivil 2020 12 31 23 0 5 0)
    (.ofCivil 2021 2 28 23 0 5 0) (.ofCivil 2030 1 1 0 0 0 0)
    (by decide) (by decide) (by decide) (by decide)).2 (by decide)

end Colonnade.Time

import Colonnade.Report.Columns
import Mathlib.Algebra.Group.Int.Defs
import Mathlib.Algebra.Group.Nat.Defs
import Mathlib.Order.Interval.Set.Basic

/-!
# Pages of a report

A page is computed with numbers of 64 bits: signed ones are made unsigned, and the rows before the
page are a product that may not fit. Each of these steps is exact or fails (`map_unsigned?`,
`map_product?`), so a page is what exact numbers say it is, or is refused (`page_eq`). Everything
else follows from the exact numbers: pages of one size lie side by side, and behind a page that is
refused none is given (`pages_tile`).
-/

namespace Colonnade.Report

/-- The rows of a page, counted from zero. -/
def Page.rows (w : Page) : Set Nat := Set.Ico w.offset (w.offset + w.limit)

namespace Columns

/-! ## Numbers of 64 bits -/

/-- A number that is not negative keeps its value without a sign. -/
theorem map_unsigned? (n : Int64) :
    (unsigned? n).map UInt64.toNat = if n.toInt < 0 then none else some n.toInt.toNat := by
  have hsign : n < 0 ↔ n.toInt < 0 := by
    rw [Int64.lt_iff_toInt_lt]
    simp
  by_cases hn : n < 0
  · rw [unsigned?, if_pos hn, if_pos (hsign.1 hn), Option.map_none]
  · have hle : 0 ≤ n := Int64.not_lt.1 hn
    rw [unsigned?, if_neg hn, if_neg (mt hsign.2 hn), Option.map_some,
      Int64.toNat_toUInt64_of_le hle, Int64.toNat_toInt]

/-- A product with 64 bits is the exact one, or there is none. -/
theorem map_product? (a b : UInt64) : (product? a b).map UInt64.toNat
    = if a.toNat * b.toNat < 2 ^ 64 then some (a.toNat * b.toNat) else none := by
  by_cases h : a.toNat * b.toNat < 2 ^ 64
  · have hsize : a.toNat * b.toNat < UInt64.size := h
    rw [product?, if_pos hsize, if_pos h, Option.map_some, UInt64.toNat_mul, Nat.mod_eq_of_lt h]
  · have hsize : ¬ a.toNat * b.toNat < UInt64.size := h
    rw [product?, if_neg hsize, if_neg h, Option.map_none]

/-! ## Pages in exact numbers -/

/-- The size of a page: a hundred rows where no number is asked for, a thousand at most. -/
def exactSize (perPage : Int) : Int := if perPage ≤ 0 then 100 else min perPage 1000

/-- How many rows stand before a page. -/
def exactOffset (page perPage : Int) : Int := exactSize perPage * (max page 1 - 1)

theorem exactSize_pos (perPage : Int) : 0 < exactSize perPage := by
  unfold exactSize
  split <;> omega

/-- The greater the page, the more rows stand before it. -/
theorem exactOffset_mono {page page' : Int} (h : page ≤ page') (perPage : Int) :
    exactOffset page perPage ≤ exactOffset page' perPage :=
  Int.mul_le_mul_of_nonneg_left (by omega) (exactSize_pos perPage).le

/-- Smaller numbers mean the first page. -/
theorem exactOffset_max (page perPage : Int) :
    exactOffset (max page 1) perPage = exactOffset page perPage := by
  rw [exactOffset, exactOffset, max_assoc, max_self]

theorem exactOffset_of_pos {page : Int} (h : 1 ≤ page) (perPage : Int) :
    exactOffset page perPage = exactSize perPage * (page - 1) := by
  rw [exactOffset, Int.max_eq_left h]

/-- A page begins where the one before it ends. -/
theorem exactOffset_succ {page : Int} (h : 1 ≤ page) (perPage : Int) :
    exactOffset (page + 1) perPage = exactOffset page perPage + exactSize perPage := by
  rw [exactOffset_of_pos h, exactOffset_of_pos (by omega), Int.add_sub_cancel, Int.mul_sub,
    Int.mul_one, Int.sub_add_cancel]

theorem toNat_pageSize (perPage : Int64) :
    ((pageSize perPage).toNat : Int) = exactSize perPage.toInt := by
  have hunsigned := map_unsigned? perPage
  unfold pageSize exactSize
  cases hn : unsigned? perPage with
  | none =>
    rw [hn] at hunsigned
    split at hunsigned
    · next hneg => rw [if_pos hneg.le]; rfl
    · cases hunsigned
  | some n =>
    rw [hn] at hunsigned
    split at hunsigned
    · cases hunsigned
    · next hneg =>
      have hvalue : n.toNat = perPage.toInt.toNat := Option.some.inj hunsigned
      have hzero : n = 0 ↔ n.toNat = 0 := by rw [← UInt64.toNat_inj]; rfl
      by_cases h0 : n.toNat = 0
      · simp only [if_pos (hzero.2 h0), if_pos (by omega : perPage.toInt ≤ 0)]
        rfl
      · have hmin : (min n maxPageSize).toNat = min n.toNat 1000 := by
          have hmax : maxPageSize.toNat = 1000 := rfl
          rw [UInt64.toNat_min, hmax]
        simp only [if_neg (mt hzero.1 h0), if_neg (by omega : ¬ perPage.toInt ≤ 0), hmin]
        omega

/-- The rows before a page are counted exactly, if they can be counted with 64 bits. -/
theorem map_rowsBefore? (limit : UInt64) (page : Int64) :
    (rowsBefore? limit page).map UInt64.toNat =
      if limit.toNat * (page.toInt.toNat - 1) < 2 ^ 64 then
        some (limit.toNat * (page.toInt.toNat - 1)) else none := by
  have hunsigned := map_unsigned? page
  have hfirst : page.toInt.toNat ≤ 1 → limit.toNat * (page.toInt.toNat - 1) = 0 := fun h => by
    rw [Nat.sub_eq_zero_of_le h, Nat.mul_zero]
  unfold rowsBefore?
  cases hn : unsigned? page with
  | none =>
    rw [hn] at hunsigned
    split at hunsigned
    · next hneg => rw [hfirst (by omega)]; rfl
    · cases hunsigned
  | some n =>
    rw [hn] at hunsigned
    split at hunsigned
    · cases hunsigned
    · have hvalue : n.toNat = page.toInt.toNat := Option.some.inj hunsigned
      have hone : 1 < n ↔ 1 < n.toNat := UInt64.lt_iff_toNat_lt
      by_cases hlater : 1 < n.toNat
      · have hbefore : (n - 1).toNat = page.toInt.toNat - 1 := by
          rw [UInt64.toNat_sub_of_le n 1 (UInt64.le_of_lt (hone.2 hlater)), hvalue]
          rfl
        simp only [if_pos (hone.2 hlater), map_product?, hbefore]
      · simp only [if_neg (mt hone.1 hlater)]
        rw [hfirst (by omega)]
        rfl

/-- The refusal of a page. -/
def outOfRange (page : Int64) : ReportError :=
  .invalidRequest ("page " ++ toString page.toInt ++ " is out of range")

/-- A page that is given has the exact size, and the exact number of rows stands before it; a page
is refused exactly if that number takes more than 64 bits. -/
theorem page_cases (page perPage : Int64) :
    (exactOffset page.toInt perPage.toInt < 2 ^ 64 ∧ ∃ w, Columns.page ⟨page, perPage⟩ = .ok w ∧
      (w.limit : Int) = exactSize perPage.toInt ∧
      (w.offset : Int) = exactOffset page.toInt perPage.toInt) ∨
    (2 ^ 64 ≤ exactOffset page.toInt perPage.toInt ∧
      Columns.page ⟨page, perPage⟩ = .error (outOfRange page)) := by
  have hsize := toNat_pageSize perPage
  have hbefore := map_rowsBefore? (pageSize perPage) page
  have hexact : exactOffset page.toInt perPage.toInt
      = ((pageSize perPage).toNat * (page.toInt.toNat - 1) : Nat) := by
    have hpage : max page.toInt 1 - 1 = (page.toInt.toNat - 1 : Nat) := by omega
    rw [exactOffset, hpage, ← hsize, Int.natCast_mul]
  simp only [Columns.page]
  cases hrows : rowsBefore? (pageSize perPage) page with
  | some offset =>
    rw [hrows] at hbefore
    split at hbefore
    · next hfits =>
      have hoffset : offset.toNat = _ := Option.some.inj hbefore
      refine .inl ⟨?_, _, rfl, hsize, ?_⟩
      · rw [hexact]
        exact_mod_cast hfits
      · rw [hexact, hoffset]
    · cases hbefore
  | none =>
    rw [hrows] at hbefore
    split at hbefore
    · cases hbefore
    · next hfits =>
      refine .inr ⟨?_, rfl⟩
      rw [hexact]
      exact_mod_cast Nat.le_of_not_lt hfits

/-! ## Pages of one size -/

section Windows

variable {page page' perPage : Int64} {w w' : Page}

theorem page_spec (h : Columns.page ⟨page, perPage⟩ = .ok w) :
    exactOffset page.toInt perPage.toInt < 2 ^ 64 ∧
      (w.limit : Int) = exactSize perPage.toInt ∧
      (w.offset : Int) = exactOffset page.toInt perPage.toInt := by
  rcases page_cases page perPage with ⟨hfits, w', hw', hlimit, hoffset⟩ | ⟨-, hrefused⟩
  · rw [h] at hw'
    cases hw'
    exact ⟨hfits, hlimit, hoffset⟩
  · rw [h] at hrefused
    cases hrefused

/-- The rows of a page end where the next one begins, or before. -/
theorem end_le_offset (hfirst : 1 ≤ page.toInt) (hlater : page.toInt < page'.toInt)
    (h : Columns.page ⟨page, perPage⟩ = .ok w) (h' : Columns.page ⟨page', perPage⟩ = .ok w') :
    w.offset + w.limit ≤ w'.offset := by
  obtain ⟨-, hlimit, hoffset⟩ := page_spec h
  obtain ⟨-, -, hoffset'⟩ := page_spec h'
  have hnext := exactOffset_mono (by omega : page.toInt + 1 ≤ page'.toInt) perPage.toInt
  rw [exactOffset_succ hfirst] at hnext
  omega

end Windows

/-- What the pages of one size are. -/
structure PagesTile (perPage : Int64) : Prop where
  /-- A page is given if the rows before it can be counted with 64 bits, and is what exact numbers
  say it is. -/
  given : ∀ page : Int64, exactOffset page.toInt perPage.toInt < 2 ^ 64 →
    ∃ w, Columns.page ⟨page, perPage⟩ = .ok w ∧ (w.limit : Int) = exactSize perPage.toInt ∧
      (w.offset : Int) = exactOffset page.toInt perPage.toInt
  /-- Otherwise it is refused. -/
  refused : ∀ page : Int64, 2 ^ 64 ≤ exactOffset page.toInt perPage.toInt →
    Columns.page ⟨page, perPage⟩ = .error (outOfRange page)
  /-- A page begins where the one before it ends. -/
  adjacent : ∀ {page next : Int64} {w w' : Page}, 1 ≤ page.toInt → next.toInt = page.toInt + 1 →
    Columns.page ⟨page, perPage⟩ = .ok w → Columns.page ⟨next, perPage⟩ = .ok w' →
    w'.offset = w.offset + w.limit
  /-- Two pages have no row in common. -/
  disjoint : ∀ {page page' : Int64} {w w' : Page}, 1 ≤ page.toInt → 1 ≤ page'.toInt →
    page ≠ page' → Columns.page ⟨page, perPage⟩ = .ok w →
    Columns.page ⟨page', perPage⟩ = .ok w' → ∀ row ∈ w.rows, row ∉ w'.rows
  /-- Every row up to the end of a page is on that page or on one before it. -/
  covered : ∀ {page : Int64} {w : Page} {row : Nat}, Columns.page ⟨page, perPage⟩ = .ok w →
    row < w.offset + w.limit → ∃ page' : Int64, ∃ w', 1 ≤ page'.toInt ∧
      page'.toInt ≤ max page.toInt 1 ∧ Columns.page ⟨page', perPage⟩ = .ok w' ∧ row ∈ w'.rows
  /-- Behind a page that is refused every page is. -/
  behind : ∀ {page page' : Int64} {e : ReportError}, page.toInt ≤ page'.toInt →
    Columns.page ⟨page, perPage⟩ = .error e →
    Columns.page ⟨page', perPage⟩ = .error (outOfRange page')

/-- A row up to the end of a page is on the page that the size says. -/
theorem exists_page_of_lt {page perPage : Int64} {w : Page} {row : Nat}
    (h : Columns.page ⟨page, perPage⟩ = .ok w) (hrow : row < w.offset + w.limit) :
    ∃ page' : Int64, ∃ w', 1 ≤ page'.toInt ∧ page'.toInt ≤ max page.toInt 1 ∧
      Columns.page ⟨page', perPage⟩ = .ok w' ∧ row ∈ w'.rows := by
  obtain ⟨hfits, hlimit, hoffset⟩ := page_spec h
  have hpos := exactSize_pos perPage.toInt
  -- counted from zero, the page is the quotient of row and size
  obtain ⟨n, hn⟩ : ∃ n, n = (row : Int) / exactSize perPage.toInt := ⟨_, rfl⟩
  have hnonneg : 0 ≤ n := hn ▸ Int.ediv_nonneg (by omega) hpos.le
  have hlower : exactSize perPage.toInt * n ≤ row := hn ▸ Int.mul_ediv_self_le hpos.ne'
  have hupper : (row : Int) < exactSize perPage.toInt * n + exactSize perPage.toInt :=
    hn ▸ Int.lt_mul_ediv_self_add hpos
  have hlast : n < max page.toInt 1 := by
    rw [hn]
    refine Int.ediv_lt_of_lt_mul hpos ?_
    rw [exactOffset] at hoffset
    have hend : (row : Int) < w.offset + w.limit := by exact_mod_cast hrow
    rw [hoffset, hlimit] at hend
    calc (row : Int)
        < exactSize perPage.toInt * (max page.toInt 1 - 1) + exactSize perPage.toInt := hend
      _ = max page.toInt 1 * exactSize perPage.toInt := by
        rw [Int.mul_sub, Int.mul_one, Int.sub_add_cancel, Int.mul_comm]
  have hvalue : (Int64.ofInt (n + 1)).toInt = n + 1 :=
    Int64.toInt_ofInt_of_le (by omega) (by have := page.toInt_lt; omega)
  have hbefore : exactOffset (n + 1) perPage.toInt = exactSize perPage.toInt * n := by
    rw [exactOffset_of_pos (by omega), Int.add_sub_cancel]
  rcases page_cases (Int64.ofInt (n + 1)) perPage with ⟨-, w', hw', hlimit', hoffset'⟩ | ⟨hover, -⟩
  · rw [hvalue, hbefore] at hoffset'
    refine ⟨_, w', ?_, ?_, hw', Set.mem_Ico.2 ⟨?_, ?_⟩⟩ <;> omega
  · have hmono := exactOffset_mono (by omega : n + 1 ≤ max page.toInt 1) perPage.toInt
    rw [exactOffset_max] at hmono
    rw [hvalue] at hover
    omega

/-- **Pages tile the result.** For every size, a page is given or refused as exact numbers say;
those that are given lie side by side from the first row on, and behind one that is refused all
are. -/
theorem pages_tile (perPage : Int64) : PagesTile perPage where
  given page hfits := by
    rcases page_cases page perPage with ⟨-, hgiven⟩ | ⟨hover, -⟩
    · exact hgiven
    · omega
  refused page hover := by
    rcases page_cases page perPage with ⟨hfits, -⟩ | ⟨-, hrefused⟩
    · omega
    · exact hrefused
  adjacent := by
    intro page next w w' hfirst hnext h h'
    obtain ⟨-, hlimit, hoffset⟩ := page_spec h
    obtain ⟨-, -, hoffset'⟩ := page_spec h'
    rw [hnext, exactOffset_succ hfirst] at hoffset'
    omega
  disjoint := by
    intro page page' w w' hfirst hfirst' hne h h' row hrow hrow'
    have hvalue : page.toInt ≠ page'.toInt := fun heq => hne (Int64.toInt_inj.1 heq)
    obtain ⟨hfrom, hto⟩ := Set.mem_Ico.1 hrow
    obtain ⟨hfrom', hto'⟩ := Set.mem_Ico.1 hrow'
    rcases Int.lt_or_gt_of_ne hvalue with hlt | hlt
    · have hend := end_le_offset hfirst hlt h h'
      omega
    · have hend := end_le_offset hfirst' hlt h' h
      omega
  covered := exists_page_of_lt
  behind := by
    intro page page' e hle hrefused
    rcases page_cases page perPage with ⟨-, w, hw, -⟩ | ⟨hover, -⟩
    · rw [hrefused] at hw
      cases hw
    · have hmono := exactOffset_mono hle perPage.toInt
      rcases page_cases page' perPage with ⟨hfits, -⟩ | ⟨-, hrefused'⟩
      · omega
      · exact hrefused'

/-- The last page of a thousand rows that can be counted, and the one behind it. -/
example : Columns.page ⟨18446744073709552, 5000⟩ = .ok ⟨1000, 18446744073709551000⟩ ∧
    Columns.page ⟨18446744073709553, 5000⟩ = .error (outOfRange 18446744073709553) := by
  decide +kernel

end Columns

end Colonnade.Report

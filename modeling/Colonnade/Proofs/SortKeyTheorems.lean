import Colonnade.Report.Columns

/-!
# Columns that a request sorts by

A report asks of single columns whether the request sorts by them, to select and join what they need,
and orders by the list of all sort keys. A sort entry loses one dash and a column that is asked for
loses all of them, but the text of a sort key tells its column and its direction
(`sortText_injective`). So a column is sorted by exactly if its name without dashes stands in the
list, in one of the two directions (`isSorted_iff`).
-/

namespace Colonnade.Report.Columns

/-! ## Sort keys and their texts -/

/-- The word for a direction. -/
def directionChars (descending : Bool) : List Char :=
  if descending then "DESC".toList else "ASC".toList

theorem directionChars_inj : ∀ down down', directionChars down = directionChars down' →
    down = down' := by
  decide +kernel

theorem space_not_mem_directionChars : ∀ descending, ' ' ∉ directionChars descending := by
  decide +kernel

/-- The direction of a sort key stands behind its last space. -/
theorem toList_sortText (key : String × Bool) :
    (sortText key).toList = key.1.toList ++ ' ' :: directionChars key.2 := by
  rw [sortText, directionChars]
  split <;> simp

theorem sortText_injective : Function.Injective sortText := by
  intro key key' h
  have htexts := congrArg String.toList h
  rw [toList_sortText, toList_sortText] at htexts
  obtain ⟨hcolumn, hdirection⟩ := Text.append_cons_inj_of_not_mem
    (space_not_mem_directionChars key.2) (space_not_mem_directionChars key'.2) htexts
  exact Prod.ext (String.toList_inj.1 hcolumn) (directionChars_inj _ _ hdirection)

theorem sortText_ascending (column : String) : sortText (column, false) = column ++ " ASC" := rfl

theorem sortText_descending (column : String) : sortText (column, true) = column ++ " DESC" := rfl

section Sorting

variable (c : Columns) (r : Request)

theorem mem_sortList_iff (text : String) : text ∈ c.sortList r ↔
    ∃ entry ∈ r.sort, (sortKey entry).1 ∈ c.sort ∧ sortText (sortKey entry) = text := by
  simp only [sortList, List.mem_map, List.mem_filter, List.contains_iff_mem]
  constructor
  · rintro ⟨_, ⟨⟨entry, hentry, rfl⟩, hallowed⟩, rfl⟩
    exact ⟨entry, hentry, hallowed, rfl⟩
  · rintro ⟨entry, hentry, hallowed, rfl⟩
    exact ⟨_, ⟨⟨entry, hentry, rfl⟩, hallowed⟩, rfl⟩

/-- The text of a key is in the list if the report allows its column and an entry asks for it. -/
theorem sortText_mem_sortList_iff (key : String × Bool) : sortText key ∈ c.sortList r ↔
    key.1 ∈ c.sort ∧ ∃ entry ∈ r.sort, sortKey entry = key := by
  rw [mem_sortList_iff]
  constructor
  · rintro ⟨entry, hentry, hallowed, htext⟩
    have hkey := sortText_injective htext
    exact ⟨hkey ▸ hallowed, entry, hentry, hkey⟩
  · rintro ⟨hallowed, entry, hentry, rfl⟩
    exact ⟨entry, hentry, hallowed, rfl⟩

/-! ## Columns that are asked for -/

/-- The name without the dashes in front of it. -/
def undashed (column : String) : String := .ofList (column.toList.dropWhile (· == '-'))

theorem undashed_of_head? {column : String} (h : column.toList.head? ≠ some '-') :
    undashed column = column := by
  rw [undashed]
  cases hchars : column.toList with
  | nil => rw [List.dropWhile_nil, ← hchars, String.ofList_toList]
  | cons d ds =>
    have hd : d ≠ '-' := by simpa [hchars] using h
    rw [List.dropWhile_cons, if_neg (by simpa using hd), ← hchars, String.ofList_toList]

/-- A column is sorted by if the list has its name without dashes, in one of the directions. -/
theorem isSorted_iff (column : String) : c.isSorted column r = true ↔
    undashed column ++ " ASC" ∈ c.sortList r ∨ undashed column ++ " DESC" ∈ c.sortList r := by
  have hkeys : (∃ entry ∈ r.sort, (sortKey entry).1 = undashed column) ↔
      (∃ entry ∈ r.sort, sortKey entry = (undashed column, false)) ∨
        ∃ entry ∈ r.sort, sortKey entry = (undashed column, true) := by
    simp only [← exists_or, ← and_or_left, Prod.ext_iff]
    refine exists_congr fun entry => and_congr_right fun _ => ?_
    cases (sortKey entry).2 <;> simp
  rw [← sortText_ascending, ← sortText_descending, sortText_mem_sortList_iff,
    sortText_mem_sortList_iff, ← and_or_left, ← hkeys]
  simp [isSorted, undashed]

/-- **What a report orders by is what it sorts by.** A request sorts by a column exactly if the list
of its sort keys has the column in one of the directions; and if no column that the report allows has
a dash in front, every key of the list is that of a column that the request sorts by. -/
theorem isSorted_iff_mem_sortList :
    (∀ column : String, column.toList.head? ≠ some '-' → (c.isSorted column r = true ↔
      column ++ " ASC" ∈ c.sortList r ∨ column ++ " DESC" ∈ c.sortList r)) ∧
    ((∀ column ∈ c.sort, column.toList.head? ≠ some '-') → ∀ key ∈ c.sortList r,
      ∃ column ∈ c.sort, c.isSorted column r = true ∧
        (key = column ++ " ASC" ∨ key = column ++ " DESC")) := by
  have hsorted : ∀ column : String, column.toList.head? ≠ some '-' →
      (c.isSorted column r = true ↔
        column ++ " ASC" ∈ c.sortList r ∨ column ++ " DESC" ∈ c.sortList r) := by
    intro column hcolumn
    rw [isSorted_iff, undashed_of_head? hcolumn]
  refine ⟨hsorted, fun hplain key hkey => ?_⟩
  obtain ⟨entry, -, hallowed, rfl⟩ := (c.mem_sortList_iff r key).1 hkey
  have hdirection : sortText (sortKey entry) = (sortKey entry).1 ++ " ASC" ∨
      sortText (sortKey entry) = (sortKey entry).1 ++ " DESC" := by
    cases hdown : (sortKey entry).2 <;> simp [sortText, hdown]
  refine ⟨_, hallowed, (hsorted _ (hplain _ hallowed)).2 ?_, hdirection⟩
  rcases hdirection with htext | htext
  · exact .inl (htext ▸ hkey)
  · exact .inr (htext ▸ hkey)

/-- An entry that asks for descending order, one whose column the report does not allow, and one with
two dashes, which asks for no column at all. -/
theorem isSorted_iff_mem_sortList_dashes :
    let c : Columns := { sort := ["countryCode", "hallId"] }
    let r : Request := { sort := ["-countryCode", "ip", "--hallId"] }
    ("countryCode".toList.head? ≠ some '-' ∧ c.isSorted "countryCode" r = true ∧
      (c.isSorted "countryCode" r = true ↔
        "countryCode" ++ " ASC" ∈ c.sortList r ∨ "countryCode" ++ " DESC" ∈ c.sortList r)) ∧
    ("hallId".toList.head? ≠ some '-' ∧ c.isSorted "hallId" r = false ∧
      (c.isSorted "hallId" r = true ↔
        "hallId" ++ " ASC" ∈ c.sortList r ∨ "hallId" ++ " DESC" ∈ c.sortList r)) ∧
    (∀ column ∈ c.sort, column.toList.head? ≠ some '-') ∧
    ("countryCode DESC" ∈ c.sortList r ∧ ∃ column ∈ c.sort, c.isSorted column r = true ∧
      ("countryCode DESC" = column ++ " ASC" ∨ "countryCode DESC" = column ++ " DESC")) := by
  intro c r
  have hcountry : "countryCode".toList.head? ≠ some '-' := by decide +kernel
  have hhall : "hallId".toList.head? ≠ some '-' := by decide +kernel
  have hplain : ∀ column ∈ c.sort, column.toList.head? ≠ some '-' := by decide +kernel
  have hkey : "countryCode DESC" ∈ c.sortList r := by decide +kernel
  have hagree := isSorted_iff_mem_sortList c r
  exact ⟨⟨hcountry, by decide +kernel, hagree.1 _ hcountry⟩,
    ⟨hhall, by decide +kernel, hagree.1 _ hhall⟩, hplain, hkey, hagree.2 hplain _ hkey⟩

end Sorting

end Colonnade.Report.Columns

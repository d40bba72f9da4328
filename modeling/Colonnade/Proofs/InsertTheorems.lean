import Colonnade.Store.Memory
import Mathlib.Data.List.TakeWhile

/-!
# Batches of rows

A list of cells fits the columns of an insert if it has one cell for each of them. An insert goes
through its batch and stops at the first list that does not fit. Its table then has one more row for
every list before that one (`appendRows_eq`): for all of them if it succeeds, but not for none of
them if it fails. `insert_exact` says what an insert leaves, and when a failure leaves all rows.
-/

namespace Colonnade.Store

/-- The object with more rows behind those it has. -/
def StoredObject.extend (o : StoredObject) (rows : List Row) : StoredObject :=
  { o with rows := o.rows ++ rows }

theorem StoredObject.extend_eq_self_iff {o : StoredObject} {rows : List Row} :
    o.extend rows = o ↔ rows = [] := by
  cases o
  simp [extend]

namespace Memory

/-- Whether there is one cell for each column. -/
def fits (columns : List String) (cells : List Value) : Bool := cells.length == columns.length

/-- The row of a list of cells. -/
def rowOf (columns : List String) (cells : List Value) : Row := .ofList (columns.zip cells)

/-- The refusal of a list of cells that does not fit. -/
def misfit (name : String) (columns : List String) (cells : List Value) : StoreError :=
  .execution ("insert into " ++ name ++ ": expected " ++ toString columns.length
    ++ " values, got " ++ toString cells.length)

/-- What comes of a batch: the first list that does not fit is refused. -/
def outcomeOf (name : String) (columns : List String) (batch : List (List Value)) :
    Except StoreError Unit :=
  match batch.find? (!fits columns ·) with
  | none => .ok ()
  | some cells => .error (misfit name columns cells)

/-! ## Going through a batch -/

/-- A list that fits is appended, and one that does not fit ends the batch. -/
theorem appendRows_cons (name : String) (columns : List String) (rows : List Row)
    (cells : List Value) (batch : List (List Value)) :
    appendRows name columns rows (cells :: batch) =
      if fits columns cells then appendRows name columns (rows ++ [rowOf columns cells]) batch
      else (.error (misfit name columns cells), rows) := by
  simp only [appendRows, fits, beq_iff_eq]
  rfl

/-- The rows before the first list that does not fit are appended. -/
theorem appendRows_eq (name : String) (columns : List String) (rows : List Row)
    (batch : List (List Value)) :
    appendRows name columns rows batch = (outcomeOf name columns batch,
      rows ++ (batch.takeWhile (fits columns)).map (rowOf columns)) := by
  induction batch generalizing rows with
  | nil => simp [appendRows, outcomeOf]
  | cons cells batch ih =>
    rw [appendRows_cons]
    by_cases hfits : fits columns cells = true
    · rw [if_pos hfits, ih]
      simp [outcomeOf, hfits]
    · rw [if_neg hfits]
      simp [outcomeOf, hfits]

theorem outcomeOf_eq_ok_iff {name : String} {columns : List String} {batch : List (List Value)} :
    outcomeOf name columns batch = .ok () ↔ ∀ cells ∈ batch, fits columns cells = true := by
  unfold outcomeOf
  cases hfind : batch.find? (!fits columns ·) with
  | none => simpa using hfind
  | some cells =>
    have hmisfit : fits columns cells = false := by simpa using List.find?_some hfind
    simp only [reduceCtorEq, false_iff]
    intro hall
    rw [hall cells (List.mem_of_find?_eq_some hfind)] at hmisfit
    cases hmisfit

/-- A batch is refused for its first list that does not fit, and every list before it fits. -/
theorem exists_of_outcomeOf_error {name : String} {columns : List String}
    {batch : List (List Value)} {e : StoreError} (h : outcomeOf name columns batch = .error e) :
    ∃ front cells rest, batch = front ++ cells :: rest ∧
      (∀ c ∈ front, fits columns c = true) ∧ fits columns cells = false ∧
      e = misfit name columns cells ∧ batch.takeWhile (fits columns) = front := by
  unfold outcomeOf at h
  cases hfind : batch.find? (!fits columns ·) with
  | none => rw [hfind] at h; cases h
  | some cells =>
    rw [hfind] at h
    cases h
    obtain ⟨hmisfit, front, rest, rfl, hfront⟩ := List.find?_eq_some_iff_append.1 hfind
    have hcells : fits columns cells = false := by simpa using hmisfit
    have hall : ∀ c ∈ front, fits columns c = true := by simpa using hfront
    refine ⟨front, cells, rest, rfl, hall, hcells, rfl, ?_⟩
    rw [List.takeWhile_append_of_pos hall, List.takeWhile_cons_of_neg (by simp [hcells]),
      List.append_nil]

/-! ## What an insert leaves -/

theorem insert_of_missing {m : Memory} {table : String}
    (h : m.objects.get? (bareName table.toList) = none) (batch : List (List Value))
    (columns : List String) :
    (m.insert table batch columns).1 = .error (.tableNotFound (bareName table.toList)) ∧
      (m.insert table batch columns).2.objects = m.objects := by
  simp [insert, log, h]

/-- An insert adds the rows of the lists before the first that does not fit to its table. -/
theorem insert_of_present {m : Memory} {table : String} {o : StoredObject}
    (h : m.objects.get? (bareName table.toList) = some o) (batch : List (List Value))
    (columns : List String) :
    (m.insert table batch columns).1 = outcomeOf (bareName table.toList) columns batch ∧
      (m.insert table batch columns).2.objects = m.objects.modify (bareName table.toList)
        (·.extend ((batch.takeWhile (fits columns)).map (rowOf columns))) := by
  have hrows (o' : StoredObject) (ho' : m.objects.get? (bareName table.toList) = some o') :
      { o' with rows := o.rows ++ (batch.takeWhile (fits columns)).map (rowOf columns) }
        = o'.extend ((batch.takeWhile (fits columns)).map (rowOf columns)) := by
    rw [h] at ho'
    rw [← Option.some.inj ho', StoredObject.extend]
  simp only [insert, log, h, appendRows_eq, setRows, true_and]
  exact NameMap.modify_congr hrows

/-- What an insert into a table of a name makes of a store. -/
structure InsertsBatch (m : Memory) (name : String) (columns : List String)
    (batch : List (List Value)) (r : Except StoreError Unit × Memory) : Prop where
  /-- It succeeds exactly if there is the table and every list of cells fits. -/
  ok_iff : r.1 = .ok () ↔
    m.objects.contains name = true ∧ ∀ cells ∈ batch, fits columns cells = true
  /-- If it succeeds, the table has one more row for every list, in their order. -/
  appends : r.1 = .ok () →
    r.2.objects = m.objects.modify name (·.extend (batch.map (rowOf columns)))
  /-- A table that is not there is missed. -/
  misses : m.objects.contains name = false → r.1 = .error (.tableNotFound name)
  /-- If it fails in its table, it is for the first list that does not fit, and the table has the
  rows of the lists before that one. -/
  stops : ∀ e, m.objects.contains name = true → r.1 = .error e →
    ∃ front cells rest, batch = front ++ cells :: rest ∧
      (∀ c ∈ front, fits columns c = true) ∧ fits columns cells = false ∧
      e = misfit name columns cells ∧
      r.2.objects = m.objects.modify name (·.extend (front.map (rowOf columns)))
  /-- If it fails, everything is as it was exactly if no list that fits came first. -/
  unchanged_iff : r.1 ≠ .ok () → (r.2.objects = m.objects ↔
    (m.objects.contains name = true → ∀ cells ∈ batch.head?, fits columns cells = false))

theorem insertsBatch_of_missing {m : Memory} {name : String}
    (h : m.objects.contains name = false) {r : Except StoreError Unit × Memory}
    (houtcome : r.1 = .error (.tableNotFound name)) (hobjects : r.2.objects = m.objects)
    (columns : List String) (batch : List (List Value)) :
    m.InsertsBatch name columns batch r where
  ok_iff := by simp [houtcome, h]
  appends := by simp [houtcome]
  misses := fun _ => houtcome
  stops := by simp [h]
  unchanged_iff := by simp [hobjects, h]

theorem insertsBatch_of_present {m : Memory} {name : String} {o : StoredObject}
    (h : m.objects.get? name = some o) {columns : List String} {batch : List (List Value)}
    {r : Except StoreError Unit × Memory} (houtcome : r.1 = outcomeOf name columns batch)
    (hobjects : r.2.objects = m.objects.modify name
      (·.extend ((batch.takeWhile (fits columns)).map (rowOf columns)))) :
    m.InsertsBatch name columns batch r := by
  have hpresent : m.objects.contains name = true := by simp [NameMap.contains, h]
  refine ⟨?_, ?_, ?_, ?_, ?_⟩
  · rw [houtcome, outcomeOf_eq_ok_iff]
    simp [hpresent]
  · intro hok
    rw [houtcome, outcomeOf_eq_ok_iff] at hok
    rw [hobjects, List.takeWhile_eq_self_iff.2 hok]
  · simp [hpresent]
  · intro e _ herror
    rw [houtcome] at herror
    obtain ⟨front, cells, rest, hbatch, hfront, hcells, he, htake⟩ :=
      exists_of_outcomeOf_error herror
    rw [htake] at hobjects
    exact ⟨front, cells, rest, hbatch, hfront, hcells, he, hobjects⟩
  · intro _
    rw [hobjects, NameMap.modify_eq_self_iff]
    simp only [h, hpresent, forall_const, Option.some.injEq, forall_eq',
      StoredObject.extend_eq_self_iff, List.map_eq_nil_iff]
    cases batch with
    | nil => simp
    | cons cells batch => simp [List.takeWhile_cons]

/-- An insert that succeeds appends its whole batch; one that fails appends what comes before the
list it fails for. -/
theorem insert_exact (m : Memory) (table : String) (batch : List (List Value))
    (columns : List String) :
    m.InsertsBatch (bareName table.toList) columns batch (m.insert table batch columns) := by
  cases hget : m.objects.get? (bareName table.toList) with
  | none =>
    obtain ⟨houtcome, hobjects⟩ := insert_of_missing hget batch columns
    have hmissing : m.objects.contains (bareName table.toList) = false := by
      simp [NameMap.contains, hget]
    exact insertsBatch_of_missing hmissing houtcome hobjects columns batch
  | some o =>
    obtain ⟨houtcome, hobjects⟩ := insert_of_present hget batch columns
    exact insertsBatch_of_present hget houtcome hobjects

/-- The second list of a batch is short of a cell: the insert fails, and the row of the first list
stays in the table. -/
theorem insert_keeps_rows_before_misfit :
    let table : StoredObject := ⟨.table, "CREATE TABLE t (a)", []⟩
    let m : Memory := { empty with objects := .ofList [("t", table)] }
    let r := m.insert "t" [[.int 1], []] ["a"]
    r.1 = .error (misfit "t" ["a"] []) ∧ m.rowsOf "t" = .ok [] ∧
      r.2.rowsOf "t" = .ok [.ofList [("a", .int 1)]] := by
  decide +kernel

end Memory

end Colonnade.Store
